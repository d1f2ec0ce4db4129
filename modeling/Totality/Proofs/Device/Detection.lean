import Totality.Device.Camera
import Totality.Proofs.Text.Blanks

/-!
# Listed cameras are detected

The table of cameras is read back, whatever blanks it is set out with and whatever lines of one word stand between its
rows. The choice among the cameras does not depend on their order. The main statement is `ofTable_listing`.
-/

namespace Totality.DetectedCamera

open Text

/-! ### Tables -/

/-- A camera that a row can show. -/
structure Listable (c : DetectedCamera) : Prop where
  model_ne : c.model.toList ≠ []
  model_flush : Flush c.model.toList
  port_ne : c.port.toList ≠ []
  port_solid : Solid c.port.toList

/-- A row shows a camera by its model, blanks and its port, with any blanks around them. -/
def Shows (c : DetectedCamera) (line : List Char) : Prop :=
  ∃ indent gap rest, Blank indent ∧ Blank gap ∧ gap ≠ [] ∧ Blank rest ∧
    line = indent ++ (c.model.toList ++ gap ++ c.port.toList) ++ rest

/-- A line of one word, or of none. -/
def Idle (line : List Char) : Prop :=
  ∃ indent word rest, Blank indent ∧ Solid word ∧ Blank rest ∧ line = indent ++ word ++ rest

/-- The lines show the cameras in order. Lines of one word or of none may stand anywhere. -/
inductive Listing : List DetectedCamera → List (List Char) → Prop where
  | nil : Listing [] []
  | idle {cameras : List DetectedCamera} {line : List Char} {body : List (List Char)} :
    Idle line → Listing cameras body → Listing cameras (line :: body)
  | row {c : DetectedCamera} {cameras : List DetectedCamera} {line : List Char} {body : List (List Char)} :
    Listable c → Shows c line → Listing cameras body → Listing (c :: cameras) (line :: body)

/-- A line that begins with three dashes, blanks in front not counted. -/
def Dashed (line : List Char) : Prop := ∃ indent rest, Blank indent ∧ line = indent ++ "---".toList ++ rest

/-- What is asked for: a part of the model, and the port. -/
def Matches (model port : Option String) (c : DetectedCamera) : Prop :=
  (∀ m ∈ model, m.toList <:+: c.model.toList) ∧ ∀ p ∈ port, c.port = p

variable {c : DetectedCamera} {cameras : List DetectedCamera} {line : List Char} {body : List (List Char)}

/-! ### Lines -/

lemma ofLine?_of_shows (hc : Listable c) (h : Shows c line) : ofLine? line = some c := by
  obtain ⟨indent, gap, rest, hindent, hgap, hne, hrest, rfl⟩ := h
  obtain ⟨gap, b, rfl⟩ := (List.eq_nil_or_concat gap).resolve_left hne
  have hflush := hc.model_flush.append hc.model_ne hc.port_solid.flush hc.port_ne (gap.concat b)
  rw [List.concat_eq_append] at hgap hflush ⊢
  have hblank : Blank gap := (List.forall_mem_append.mp hgap).1
  have hb : isBlank b := hgap b (by simp)
  -- the last blank stands right before the port
  have hcut : c.model.toList ++ (gap ++ [b]) ++ c.port.toList = c.model.toList ++ gap ++ b :: c.port.toList := by simp
  have hmodel : trim (c.model.toList ++ gap) = c.model.toList := by
    rw [trim_append_blank _ hblank, hc.model_flush.trim]
  rw [ofLine?, hflush.trim_between hindent hrest, hcut, cutLast?_append hc.port_solid hb]
  simp [hmodel, hc.model_ne, String.ofList_toList]

lemma ofLine?_of_idle (h : Idle line) : ofLine? line = none := by
  obtain ⟨indent, word, rest, hindent, hword, hrest, rfl⟩ := h
  rw [ofLine?, hword.flush.trim_between hindent hrest, cutLast?_eq_none hword]

lemma filterMap_ofLine? (h : Listing cameras body) : body.filterMap ofLine? = cameras := by
  induction h with
  | nil => rfl
  | idle hidle _ ih => rw [List.filterMap_cons_none (ofLine?_of_idle hidle), ih]
  | row hc hshows _ ih => rw [List.filterMap_cons_some (ofLine?_of_shows hc hshows), ih]

lemma isRule_iff : isRule line ↔ Dashed line := by
  rw [isRule, List.isPrefixOf_iff_prefix]
  constructor
  · rintro ⟨rest, hrest⟩
    refine ⟨line.takeWhile isBlank, rest, fun c hc => List.mem_takeWhile_imp hc, ?_⟩
    rw [List.append_assoc, hrest, trimStart, List.takeWhile_append_dropWhile]
  · rintro ⟨indent, rest, hindent, rfl⟩
    have hdash : trimStart ("---".toList ++ rest) = "---".toList ++ rest :=
      trimStart_of_head? (by simp [isBlank])
    rw [List.append_assoc, trimStart_blank_append hindent, hdash]
    exact List.prefix_append _ _

/-! ### Texts -/

/-- What a line means to a table. -/
def look (line : List Char) : Bool × Option DetectedCamera := (isRule line, ofLine? line)

/-- The cameras in the lines of a table. -/
def rows (ls : List (List Char)) : List DetectedCamera :=
  ((ls.dropWhile fun line => !isRule line).drop 1).filterMap ofLine?

lemma rows_eq_of_map_look {ls ls' : List (List Char)} (h : ls.map look = ls'.map look) : rows ls = rows ls' := by
  have hlook : ∀ ls, rows ls = (((ls.map look).dropWhile fun l => !l.1).drop 1).filterMap Prod.snd := by
    intro ls
    rw [List.dropWhile_map, ← List.map_drop, List.filterMap_map]
    rfl
  rw [hlook, hlook, h]

lemma rows_append_nil (ls : List (List Char)) : rows (ls ++ [[]]) = rows ls := by
  have hnil : isRule [] = false := by decide
  rw [rows, rows, List.dropWhile_append]
  split
  · next hempty =>
    rw [List.isEmpty_iff] at hempty
    rw [hempty, List.dropWhile_cons_of_pos (by simp [hnil])]
    rfl
  · next hne =>
    obtain ⟨l, rest, hl⟩ := List.exists_cons_of_ne_nil (List.isEmpty_iff.not.mp hne)
    rw [hl, List.cons_append, List.drop_succ_cons, List.drop_zero, List.drop_succ_cons, List.drop_zero,
      List.filterMap_append]
    exact List.append_nil _

lemma dashed_append_return {front : List Char} : Dashed (front ++ ['\r']) ↔ Dashed front := by
  constructor
  · rintro ⟨indent, rest, hindent, h⟩
    obtain rfl | ⟨rest, c, rfl⟩ := List.eq_nil_or_concat rest
    · -- the last character would be a dash
      have hlast := congrArg List.getLast? h
      rw [List.append_nil, List.getLast?_concat, List.getLast?_append_of_ne_nil _ (by decide)] at hlast
      exact absurd hlast (by decide)
    · rw [List.concat_eq_append, ← List.append_assoc] at h
      obtain ⟨rfl, -⟩ := List.append_inj' h rfl
      exact ⟨indent, rest, hindent, rfl⟩
  · rintro ⟨indent, rest, hindent, rfl⟩
    exact ⟨indent, rest ++ ['\r'], hindent, List.append_assoc ..⟩

/-- A return at the end of a line means nothing. -/
lemma look_dropReturn (line : List Char) : look (dropReturn line) = look line := by
  rw [dropReturn]
  split
  · next hlast =>
    obtain ⟨front, rfl⟩ := List.getLast?_eq_some_iff.mp hlast
    have hreturn : Blank ['\r'] := by decide
    have hrule : isRule (front ++ ['\r']) = isRule front := by
      rw [Bool.eq_iff_iff, isRule_iff, isRule_iff]
      exact dashed_append_return
    rw [List.dropLast_concat, look, look, hrule, ofLine?, ofLine?, trim_append_blank _ hreturn]
  · rfl

/-- Lines that are joined are the rows of the table again. -/
lemma ofTable_intercalate {ls : List (List Char)} (hne : ls ≠ []) (hls : ∀ l ∈ ls, '\n' ∉ l) :
    ofTable (['\n'].intercalate ls) = rows ls := by
  have hpieces : splitAt '\n' (['\n'].intercalate ls) = ls := splitAt_eq_iff.mpr ⟨hne, hls, rfl⟩
  obtain ⟨front, last, rfl⟩ := (List.eq_nil_or_concat ls).resolve_left hne
  rw [List.concat_eq_append] at hpieces ⊢
  have hfront : (front.map dropReturn).map look = front.map look := by
    rw [List.map_map]
    exact List.map_congr_left fun l _ => look_dropReturn l
  change rows (lines _) = _
  rw [lines, hpieces, List.dropLast_concat, List.getLast?_concat, Option.getD_some]
  by_cases hlast : last = []
  · rw [if_pos (List.isEmpty_iff.mpr hlast), hlast, List.append_nil, rows_append_nil]
    exact rows_eq_of_map_look hfront
  · rw [if_neg (List.isEmpty_iff.not.mpr hlast)]
    apply rows_eq_of_map_look
    rw [List.map_append, List.map_append, hfront]

/-- The rows begin below the first line of dashes. -/
lemma rows_append {preamble : List (List Char)} {rule : List Char} (hpreamble : ∀ l ∈ preamble, ¬Dashed l)
    (hrule : Dashed rule) (body : List (List Char)) : rows (preamble ++ rule :: body) = body.filterMap ofLine? := by
  have hbefore : ∀ l ∈ preamble, (!isRule l) = true := by
    intro l hl
    rw [Bool.not_eq_true', Bool.eq_false_iff, ne_eq, isRule_iff]
    exact hpreamble l hl
  have hat : ¬(!isRule rule) = true := by simp [isRule_iff.mpr hrule]
  rw [rows, List.dropWhile_append_of_pos hbefore, List.dropWhile_cons, if_neg hat, List.drop_succ_cons, List.drop_zero]

/-! ### Choice -/

lemma contains_iff {part cs : List Char} : Text.contains part cs ↔ part <:+: cs := by
  induction cs with
  | nil => rw [Text.contains, List.isEmpty_iff, List.infix_nil]
  | cons c cs ih => rw [Text.contains, Bool.or_eq_true, ih, List.isPrefixOf_iff_prefix, List.infix_cons_iff]

lemma isWanted_iff {model port : Option String} : isWanted model port c ↔ Matches model port c := by
  simp [isWanted, Matches, contains_iff, Option.all_eq_true]

variable {model port : Option String}

/-- The only camera that matches is what is left of the list, wherever it stood. -/
lemma filter_eq_singleton_iff : cameras.filter (isWanted model port) = [c] ↔
    ∃ rest, cameras.Perm (c :: rest) ∧ Matches model port c ∧ ∀ d ∈ rest, ¬Matches model port d := by
  constructor
  · intro h
    have hperm := List.filter_append_perm (isWanted model port) cameras
    have hmem : c ∈ cameras.filter (isWanted model port) := by rw [h]; exact List.mem_singleton_self c
    rw [h, List.singleton_append] at hperm
    refine ⟨_, hperm.symm, isWanted_iff.mp (List.of_mem_filter hmem), fun d hd => ?_⟩
    rw [← isWanted_iff]
    simpa using List.of_mem_filter hd
  · rintro ⟨rest, hperm, hc, hrest⟩
    have hfilter := hperm.filter (isWanted model port)
    have hnone : rest.filter (isWanted model port) = [] := by
      rw [List.filter_eq_nil_iff]
      exact fun d hd => isWanted_iff.not.mpr (hrest d hd)
    rw [List.filter_cons_of_pos (isWanted_iff.mpr hc), hnone, List.perm_singleton] at hfilter
    exact hfilter

lemma not_unasked (h : model.isSome ∨ port.isSome) : ¬(model.isNone && port.isNone) = true := by
  rw [Bool.and_eq_true, Option.isNone_iff_eq_none, Option.isNone_iff_eq_none]
  rintro ⟨rfl, rfl⟩
  simp at h

/-- A camera is chosen if and only if it is all that is left of the list. -/
lemma select_eq_ok_iff (h : model.isSome ∨ port.isSome) :
    select cameras model port = .ok c ↔ cameras.filter (isWanted model port) = [c] := by
  unfold select
  rw [if_neg (not_unasked h)]
  split
  · next hnil => simp [hnil]
  · next d hone => simp [hone]
  · next hnot => exact iff_of_false nofun fun hone => hnot c hone

/-- What is left of a list does not depend on its order, as long as it is one camera at most. -/
lemma select_perm {cameras' : List DetectedCamera} (h : model.isSome ∨ port.isSome) (hperm : cameras.Perm cameras') :
    select cameras' model port = select cameras model port := by
  have hkept := hperm.filter (isWanted model port)
  unfold select
  rw [if_neg (not_unasked h), if_neg (not_unasked h)]
  generalize cameras.filter (isWanted model port) = kept at hkept
  generalize cameras'.filter (isWanted model port) = kept' at hkept
  match kept, kept', hkept with
  | [], _, hkept => rw [List.nil_perm.mp hkept]
  | [d], _, hkept => rw [List.singleton_perm.mp hkept]
  | _ :: _ :: _, _ :: _ :: _, _ => rfl
  | _ :: _ :: _, [], hkept => cases hkept.length_eq
  | _ :: _ :: _, [_], hkept => cases hkept.length_eq

/-- The table of some cameras, as lines that end with newlines, is read back as these cameras in order: lines that do not
begin with dashes, a line that does, and then the rows, with lines of one word or none among them. If a part of a model
or a port is asked for, a camera is chosen if and only if it matches and no other one in the list does, and nothing that
comes of the choice depends on the order of the list. -/
theorem ofTable_listing {preamble : List (List Char)} {rule : List Char}
    (hlines : ∀ l ∈ preamble ++ rule :: body, '\n' ∉ l) (hpreamble : ∀ l ∈ preamble, ¬Dashed l) (hrule : Dashed rule)
    (hbody : Listing cameras body) :
    ofTable (['\n'].intercalate (preamble ++ rule :: body)) = cameras ∧
      ∀ model port : Option String, model.isSome ∨ port.isSome →
        (∀ c, select cameras model port = .ok c ↔
          ∃ rest, cameras.Perm (c :: rest) ∧ Matches model port c ∧ ∀ d ∈ rest, ¬Matches model port d) ∧
        ∀ cameras', cameras.Perm cameras' → select cameras' model port = select cameras model port := by
  refine ⟨?_, fun model port hasked => ⟨fun c => ?_, fun cameras' => select_perm hasked⟩⟩
  · have hne : preamble ++ rule :: body ≠ [] := by simp
    rw [ofTable_intercalate hne hlines, rows_append hpreamble hrule, filterMap_ofLine? hbody]
  · rw [select_eq_ok_iff hasked, filter_eq_singleton_iff]

/-- Two cameras, one of them with a wide blank in its model. -/
def attached : List DetectedCamera := [⟨"Canon EOS R5", "usb:001,007"⟩, ⟨"Nikon\u3000D850", "usb:002,003"⟩]

/-- Their rows, with a word between them and an empty line at the end. -/
def attachedRows : List (List Char) :=
  ["Canon EOS R5   usb:001,007".toList, "busy".toList, " Nikon\u3000D850\tusb:002,003\r".toList, []]

lemma listing_attached : Listing attached attachedRows := by
  have hcanon : Listable ⟨"Canon EOS R5", "usb:001,007"⟩ := ⟨by decide, by decide, by decide, by decide⟩
  have hnikon : Listable ⟨"Nikon\u3000D850", "usb:002,003"⟩ := ⟨by decide, by decide, by decide, by decide⟩
  have hcanonRow : Shows ⟨"Canon EOS R5", "usb:001,007"⟩ "Canon EOS R5   usb:001,007".toList :=
    ⟨[], "   ".toList, [], by decide, by decide, by decide, by decide, by decide⟩
  have hnikonRow : Shows ⟨"Nikon\u3000D850", "usb:002,003"⟩ " Nikon\u3000D850\tusb:002,003\r".toList :=
    ⟨[' '], ['\t'], ['\r'], by decide, by decide, by decide, by decide, by decide⟩
  have hbusy : Idle "busy".toList := ⟨[], "busy".toList, [], by decide, by decide, by decide, by decide⟩
  have hempty : Idle [] := ⟨[], [], [], by decide, by decide, by decide, rfl⟩
  exact .row hcanon hcanonRow (.idle hbusy (.row hnikon hnikonRow (.idle hempty .nil)))

/-- The table of the two cameras is read back, and part of a model is enough for a choice if only one of them has it. -/
theorem ofTable_attached :
    Listing attached attachedRows ∧ ¬Dashed "Model       Port".toList ∧ Dashed "-----------\r".toList ∧
      ofTable "Model       Port\n-----------\r\nCanon EOS R5   usb:001,007\nbusy\n Nikon\u3000D850\tusb:002,003\r\n".toList =
        attached ∧
      select attached (some "EOS") none = .ok ⟨"Canon EOS R5", "usb:001,007"⟩ ∧
      select attached.reverse (some "EOS") none = .ok ⟨"Canon EOS R5", "usb:001,007"⟩ := by
  have hheading : ¬Dashed "Model       Port".toList := isRule_iff.not.mp (by decide)
  have hrule : Dashed "-----------\r".toList := isRule_iff.mp (by decide)
  have hlines : ∀ l ∈ ["Model       Port".toList] ++ "-----------\r".toList :: attachedRows, '\n' ∉ l := by decide
  have htext : ['\n'].intercalate (["Model       Port".toList] ++ "-----------\r".toList :: attachedRows) =
      "Model       Port\n-----------\r\nCanon EOS R5   usb:001,007\nbusy\n Nikon\u3000D850\tusb:002,003\r\n".toList := by
    decide +kernel
  obtain ⟨htable, hselect⟩ := ofTable_listing hlines (List.forall_mem_singleton.mpr hheading) hrule listing_attached
  rw [htext] at htable
  obtain ⟨-, horder⟩ := hselect (some "EOS") none (Or.inl rfl)
  have hchosen : select attached (some "EOS") none = .ok ⟨"Canon EOS R5", "usb:001,007"⟩ := by decide
  refine ⟨listing_attached, hheading, hrule, htable, hchosen, ?_⟩
  rw [horder _ attached.reverse_perm.symm, hchosen]

end Totality.DetectedCamera
