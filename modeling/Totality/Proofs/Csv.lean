import Mathlib.Tactic.Lemma
import Mathlib.Tactic.SplitIfs
import Totality.Csv
import Totality.Proofs.Text.Utf8

/-!
# Written records are read back

The reader takes the bytes of a written record to the fields of the record, whatever these hold, and stands at the
start of the next record then. The main statement is `records_encode`.
-/

namespace Totality.Csv

open Utf8

namespace Reader

/-! ### Bytes of a field -/

/-- A byte that is part of a field wherever it stands. -/
def Plain (b : UInt8) : Prop := b ≠ comma ∧ b ≠ quote ∧ b ≠ newline ∧ b ≠ carriage

lemma step_plain {r : Reader} {b : UInt8} (hb : Plain b)
    (hr : r.place = .recordStart ∨ r.place = .fieldStart ∨ r.place = .plain) : r.step b = r.push .plain b := by
  obtain ⟨hcomma, hquote, hnewline, hcarriage⟩ := hb
  rcases hr with hr | hr | hr <;> simp [step, plainByte, hr, hcomma, hquote, hnewline, hcarriage]

/-- Plain bytes are collected. -/
lemma foldl_step_plain {bs : List UInt8} (hbs : ∀ b ∈ bs, Plain b) {r : Reader}
    (hr : r.place = .recordStart ∨ r.place = .fieldStart ∨ r.place = .plain) :
    bs.foldl step r = { r with place := if bs.isEmpty then r.place else .plain, field := bs.reverse ++ r.field } := by
  induction bs generalizing r with
  | nil => rfl
  | cons b bs ih =>
    obtain ⟨hb, hbs⟩ := List.forall_mem_cons.mp hbs
    rw [List.foldl_cons, step_plain hb hr, ih hbs (Or.inr (Or.inr rfl))]
    simp [push]

lemma step_quoted {r : Reader} (hr : r.place = .quoted) {b : UInt8} (hb : b ≠ quote) :
    r.step b = r.push .quoted b := by
  simp [step, hr, hb]

/-- Between quotes all bytes are collected but quotes. -/
lemma foldl_step_quoted {bs : List UInt8} (hbs : ∀ b ∈ bs, b ≠ quote) {r : Reader} (hr : r.place = .quoted) :
    bs.foldl step r = { r with field := bs.reverse ++ r.field } := by
  induction bs generalizing r with
  | nil => rfl
  | cons b bs ih =>
    obtain ⟨hb, hbs⟩ := List.forall_mem_cons.mp hbs
    rw [List.foldl_cons, step_quoted hr hb, ih hbs rfl]
    simp [push, hr]

/-- Of two quotes one is collected. -/
lemma foldl_step_quotes {r : Reader} (hr : r.place = .quoted) :
    [quote, quote].foldl step r = { r with field := quote :: r.field } := by
  simp [step, push, hr]

lemma step_comma {r : Reader} (hr : r.place ≠ .quoted) : r.step comma = r.endField := by
  obtain ⟨place, field, fields, records⟩ := r
  cases place with
  | quoted => exact absurd rfl hr
  | recordStart => rfl
  | fieldStart => rfl
  | plain => rfl
  | quoteSeen => rfl

lemma step_newline {r : Reader} (hr : r.place ≠ .quoted) (hstart : r.place ≠ .recordStart) :
    r.step newline = r.endRecord := by
  obtain ⟨place, field, fields, records⟩ := r
  cases place with
  | quoted => exact absurd rfl hr
  | recordStart => exact absurd rfl hstart
  | fieldStart => rfl
  | plain => rfl
  | quoteSeen => rfl

/-! ### Characters of a field -/

lemma plain_of_mem {c : Char} (hc : ¬(c = ',' ∨ c = '"' ∨ c = '\r' ∨ c = '\n')) {b : UInt8}
    (hb : b ∈ String.utf8EncodeChar c) : Plain b := by
  simp only [not_or] at hc
  obtain ⟨hcomma, hquote, hcarriage, hnewline⟩ := hc
  refine ⟨?_, ?_, ?_, ?_⟩
  · rintro rfl
    exact hcomma (eq_of_mem_utf8EncodeChar hb rfl (by decide))
  · rintro rfl
    exact hquote (eq_of_mem_utf8EncodeChar hb rfl (by decide))
  · rintro rfl
    exact hnewline (eq_of_mem_utf8EncodeChar hb rfl (by decide))
  · rintro rfl
    exact hcarriage (eq_of_mem_utf8EncodeChar hb rfl (by decide))

/-- The bytes of a text with doubled quotes, read between quotes. -/
lemma foldl_step_doubled {cs : List Char} {r : Reader} (hr : r.place = .quoted) :
    ((cs.flatMap fun c => if c = '"' then ['"', '"'] else [c]).flatMap String.utf8EncodeChar).foldl step r =
      { r with field := (cs.flatMap String.utf8EncodeChar).reverse ++ r.field } := by
  induction cs generalizing r with
  | nil => rfl
  | cons c cs ih =>
    rw [List.flatMap_cons, List.flatMap_append, List.foldl_append, List.flatMap_cons]
    split_ifs with hc
    · subst hc
      have hquotes : ['"', '"'].flatMap String.utf8EncodeChar = [quote, quote] := by decide
      have hquote : String.utf8EncodeChar '"' = [quote] := by decide
      rw [hquotes, foldl_step_quotes hr, ih, hquote]
      · simp
      · exact hr
    · have hbytes : ∀ b ∈ String.utf8EncodeChar c, b ≠ quote := by
        rintro b hb rfl
        exact hc (eq_of_mem_utf8EncodeChar hb rfl (by decide))
      rw [List.flatMap_singleton, foldl_step_quoted hbytes hr, ih]
      · simp
      · exact hr

lemma step_quote {r : Reader} (hr : r.place = .recordStart ∨ r.place = .fieldStart) :
    r.step quote = { r with place := .quoted } := by
  obtain ⟨place, field, fields, records⟩ := r
  rcases hr with rfl | rfl <;> rfl

lemma step_quote_of_quoted {r : Reader} (hr : r.place = .quoted) : r.step quote = { r with place := .quoteSeen } := by
  obtain ⟨place, field, fields, records⟩ := r
  subst hr
  rfl

/-- A written field is read to its end, where it is not open any more. -/
lemma foldl_step_writeField (cs : List Char) {r : Reader} (hr : r.place = .recordStart ∨ r.place = .fieldStart)
    (hfield : r.field = []) :
    ∃ place, ((writeField cs).flatMap String.utf8EncodeChar).foldl step r =
        { r with place := place, field := (cs.flatMap String.utf8EncodeChar).reverse } ∧
      place ≠ .quoted ∧ (place = .recordStart → r.place = .recordStart) := by
  rw [writeField]
  split_ifs with hquotes
  · have hquote : String.utf8EncodeChar '"' = [quote] := by decide
    refine ⟨.quoteSeen, ?_, nofun, nofun⟩
    simp only [List.flatMap_append, List.flatMap_cons, List.flatMap_nil, hquote, List.append_nil, List.foldl_append,
      List.foldl_cons, List.foldl_nil]
    rw [step_quote hr, foldl_step_doubled rfl, step_quote_of_quoted rfl, hfield, List.append_nil]
  · have hplain : ∀ b ∈ cs.flatMap String.utf8EncodeChar, Plain b := by
      intro b hb
      obtain ⟨c, hc, hb⟩ := List.mem_flatMap.mp hb
      exact plain_of_mem (fun hspecial => hquotes (List.any_eq_true.mpr ⟨c, hc, decide_eq_true hspecial⟩)) hb
    rw [foldl_step_plain hplain (hr.imp_right Or.inl), hfield, List.append_nil]
    refine ⟨_, rfl, ?_, ?_⟩
    · split_ifs
      · rcases hr with hr | hr <;> rw [hr] <;> nofun
      · nofun
    · split_ifs
      · exact id
      · nofun

/-! ### Records -/

/-- The fields of a record are read one by one, up to the end of the line. -/
lemma foldl_step_fields (f : String) (fs : List String) {r : Reader} (hfield : r.field = [])
    (hr : r.place = .fieldStart ∨ r.place = .recordStart ∧ fs ≠ []) :
    (((((f :: fs).map fun f => writeField f.toList).intersperse [',']).flatten ++ ['\n']).flatMap
        String.utf8EncodeChar).foldl step r =
      ⟨.recordStart, [], [], (r.fields.reverse ++ (f :: fs).map encode) :: r.records⟩ := by
  have hnewline : String.utf8EncodeChar '\n' = [newline] := by decide
  have hcomma : String.utf8EncodeChar ',' = [comma] := by decide
  induction fs generalizing f r with
  | nil =>
    have hstart : r.place = .fieldStart := hr.resolve_right fun h => h.2 rfl
    obtain ⟨place, hfold, hquoted, hrecord⟩ := foldl_step_writeField f.toList (Or.inr hstart) hfield
    have hopen : place ≠ .recordStart := fun h => by
      have := hrecord h
      rw [hstart] at this
      cases this
    simp only [List.map_cons, List.map_nil, List.intersperse_singleton, List.flatten_cons, List.flatten_nil,
      List.append_nil, List.flatMap_append, List.flatMap_cons, List.flatMap_nil, hnewline, List.foldl_append,
      List.foldl_cons, List.foldl_nil]
    rw [hfold, step_newline hquoted hopen, endRecord, encode_eq]
    simp
  | cons g gs ih =>
    obtain ⟨place, hfold, hquoted, -⟩ := foldl_step_writeField f.toList (hr.symm.imp_left And.left) hfield
    simp only [List.map_cons, List.intersperse_cons_cons, List.flatten_cons, List.append_assoc, List.flatMap_append,
      List.flatMap_cons, List.flatMap_nil, hcomma, List.append_nil, List.foldl_append, List.foldl_cons,
      List.foldl_nil] at ih ⊢
    rw [hfold, step_comma hquoted, ih, encode_eq f]
    · simp [endField]
    · rfl
    · exact Or.inl rfl

lemma foldl_step_writeRecord {row : List String} (hrow : 2 ≤ row.length) (records : List (List (List UInt8))) :
    ((writeRecord row).flatMap String.utf8EncodeChar).foldl step ⟨.recordStart, [], [], records⟩ =
      ⟨.recordStart, [], [], row.map encode :: records⟩ := by
  match row, hrow with
  | f :: g :: fs, _ => exact foldl_step_fields f (g :: fs) rfl (Or.inr ⟨rfl, nofun⟩)

lemma foldl_step_writeRecords {rows : List (List String)} (hrows : ∀ row ∈ rows, 2 ≤ row.length)
    (records : List (List (List UInt8))) :
    ((rows.flatMap writeRecord).flatMap String.utf8EncodeChar).foldl step ⟨.recordStart, [], [], records⟩ =
      ⟨.recordStart, [], [], (rows.map (·.map encode)).reverse ++ records⟩ := by
  induction rows generalizing records with
  | nil => rfl
  | cons row rows ih =>
    obtain ⟨hrow, hrows⟩ := List.forall_mem_cons.mp hrows
    rw [List.flatMap_cons, List.flatMap_append, List.foldl_append, foldl_step_writeRecord hrow, ih hrows]
    simp

end Reader

/-- A text without a byte order mark in front keeps all its bytes. -/
lemma dropMark_of_head? {bytes : List UInt8} (h : bytes.head? ≠ some 0xEF) : dropMark bytes = bytes := by
  unfold dropMark
  split
  · exact absurd rfl h
  · rfl

/-- The records of a written file are the rows that were written. -/
theorem records_encode {rows : List (List String)} (hrows : ∀ row ∈ rows, 2 ≤ row.length)
    (hmark : (encode (String.ofList (rows.flatMap writeRecord))).head? ≠ some 0xEF) :
    records (encode (String.ofList (rows.flatMap writeRecord))) = rows.map (·.map encode) := by
  rw [records, dropMark_of_head? hmark, encode_ofList, Reader.init, Reader.foldl_step_writeRecords hrows]
  simp [Reader.finish]

lemma fieldTexts?_encode (row : List String) : fieldTexts? (row.map encode) = some row := by
  rw [fieldTexts?, List.mapM_map]
  induction row with
  | nil => rfl
  | cons f fs ih =>
    rw [List.mapM_cons, ih, Function.comp_apply, decode?_encode]
    rfl

end Totality.Csv
