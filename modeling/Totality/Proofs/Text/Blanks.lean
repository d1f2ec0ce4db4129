import Mathlib.Data.List.Basic
import Mathlib.Data.List.TakeWhile
import Totality.Proofs.Text.Pieces

/-!
# Blanks around a text

Trimming takes off whatever blanks stand around a text and nothing else. A cut at a character, and pieces at a
separator, are told by what they are joined from.
-/

namespace Totality.Text

/-- A text of blanks only. -/
def Blank (cs : List Char) : Prop := ∀ c ∈ cs, isBlank c

instance (cs : List Char) : Decidable (Blank cs) := List.decidableBAll _ cs

/-- A text that neither begins nor ends with a blank. -/
structure Flush (cs : List Char) : Prop where
  head : ∀ c ∈ cs.head?, isBlank c = false
  last : ∀ c ∈ cs.getLast?, isBlank c = false

instance (cs : List Char) : Decidable (Flush cs) :=
  decidable_of_iff (cs.head?.all (fun c => !isBlank c) ∧ cs.getLast?.all (fun c => !isBlank c)) <| by
    simp only [Option.all_eq_true, Bool.not_eq_true']
    exact ⟨fun h => ⟨h.1, h.2⟩, fun h => ⟨h.head, h.last⟩⟩

variable {cs ds bs : List Char}

/-! ### Texts of blanks -/

lemma Blank.reverse (h : Blank bs) : Blank bs.reverse := fun c hc => h c (List.mem_reverse.mp hc)

lemma trimStart_blank_append (h : Blank bs) (cs : List Char) : trimStart (bs ++ cs) = trimStart cs :=
  List.dropWhile_append_of_pos h

lemma Blank.trimStart (h : Blank bs) : trimStart bs = [] := by
  have happend := trimStart_blank_append h []
  rwa [List.append_nil] at happend

lemma trimEnd_append_blank (cs : List Char) (h : Blank bs) : trimEnd (cs ++ bs) = trimEnd cs := by
  rw [trimEnd, List.reverse_append, trimStart_blank_append h.reverse, trimEnd]

/-- Blanks in front do not count. -/
lemma trim_blank_append (h : Blank bs) (cs : List Char) : trim (bs ++ cs) = trim cs := by
  rw [trim, trimStart_blank_append h, trim]

/-- Blanks at the end do not count. -/
lemma trim_append_blank (cs : List Char) (h : Blank bs) : trim (cs ++ bs) = trim cs := by
  rw [trim, trim, Text.trimStart, List.dropWhile_append]
  split
  · next hempty =>
    rw [List.isEmpty_iff] at hempty
    rw [Text.trimStart, hempty, ← Text.trimStart, h.trimStart]
  · exact trimEnd_append_blank _ h

/-! ### Texts without blanks at their ends -/

lemma Flush.trim (h : Flush cs) : trim cs = cs := trim_of_ends h.head h.last

lemma Solid.flush (h : Solid cs) : Flush cs :=
  ⟨fun c hc => h c (List.mem_of_mem_head? hc), fun c hc => h c (List.mem_of_getLast? hc)⟩

/-- Whatever stands between two texts, only their outer ends count. -/
lemma Flush.append (hcs : Flush cs) (hne : cs ≠ []) (hds : Flush ds) (hne' : ds ≠ []) (between : List Char) :
    Flush (cs ++ between ++ ds) := by
  constructor
  · intro c hc
    rw [List.append_assoc, List.head?_append_of_ne_nil _ hne] at hc
    exact hcs.head c hc
  · intro c hc
    rw [List.getLast?_append_of_ne_nil _ hne'] at hc
    exact hds.last c hc

lemma trimStart_head? (cs : List Char) : ∀ c ∈ (trimStart cs).head?, isBlank c = false := by
  have hnot := List.head?_dropWhile_not isBlank cs
  intro c hc
  rw [Text.trimStart] at hc
  rw [hc] at hnot
  exact hnot

/-- What trimming leaves has no blanks at its ends. -/
lemma flush_trim (cs : List Char) : Flush (trim cs) := by
  have hlast : ∀ c ∈ (trim cs).getLast?, isBlank c = false := by
    intro c hc
    rw [Text.trim, trimEnd, List.getLast?_reverse] at hc
    exact trimStart_head? _ c hc
  refine ⟨fun c hc => ?_, hlast⟩
  -- taking blanks from the end does not change the first character
  obtain ⟨bs, hbs⟩ : ∃ bs, trimStart cs = Text.trim cs ++ bs := by
    refine ⟨((trimStart cs).reverse.takeWhile isBlank).reverse, ?_⟩
    rw [Text.trim, trimEnd, Text.trimStart, ← List.reverse_append, Text.trimStart, List.takeWhile_append_dropWhile,
      List.reverse_reverse]
  apply trimStart_head? cs c
  rw [hbs]
  exact List.mem_head?_append_of_mem_head? hc

/-- Behind a text only its own end is trimmed. -/
lemma trim_append_flush (cs : List Char) (h : Flush ds) (hne : ds ≠ []) : Text.trim (cs ++ ds) = trimStart cs ++ ds := by
  have hfront : trimStart (cs ++ ds) = trimStart cs ++ ds := by
    rw [Text.trimStart, List.dropWhile_append]
    split
    · next hempty =>
      rw [List.isEmpty_iff] at hempty
      rw [← Text.trimStart, trimStart_of_head? h.head, Text.trimStart, hempty, List.nil_append]
    · rfl
  have hback : trimStart (trimStart cs ++ ds).reverse = (trimStart cs ++ ds).reverse := by
    apply trimStart_of_head?
    rw [List.head?_reverse, List.getLast?_append_of_ne_nil _ hne]
    exact h.last
  rw [Text.trim, hfront, trimEnd, hback, List.reverse_reverse]

/-- Blanks around a text without blanks at its ends are found and taken off. -/
lemma Flush.trim_between (h : Flush cs) {front back : List Char} (hfront : Blank front) (hback : Blank back) :
    Text.trim (front ++ cs ++ back) = cs := by
  rw [trim_append_blank _ hback, trim_blank_append hfront, h.trim]

/-! ### Cuts -/

section Cut

variable {p : Char → Bool}

/-- A cut is made at the first character that satisfies `p`. -/
lemma cut?_eq_some_iff {before after : List Char} :
    cut? p cs = some (before, after) ↔ ∃ c, cs = before ++ c :: after ∧ p c ∧ ∀ d ∈ before, p d = false := by
  constructor
  · intro h
    have hjoin := List.takeWhile_append_dropWhile (p := fun c => !p c) (l := cs)
    have hfirst := List.head?_dropWhile_not (fun c => !p c) cs
    rw [cut?] at h
    split at h
    · cases h
    · next c rest hrest =>
      cases h
      rw [hrest] at hjoin hfirst
      refine ⟨c, hjoin.symm, by simpa using hfirst, fun d hd => ?_⟩
      have hall := List.mem_takeWhile_imp hd
      simpa using hall
  · rintro ⟨c, rfl, hc, hbefore⟩
    exact cut?_append hbefore hc after

/-- No cut is made where no character satisfies `p`. -/
lemma cut?_eq_none (h : ∀ c ∈ cs, p c = false) : cut? p cs = none := by
  cases hcut : cut? p cs with
  | none => rfl
  | some parts =>
    obtain ⟨c, rfl, hc, -⟩ := cut?_eq_some_iff.mp hcut
    rw [h c (by simp)] at hc
    cases hc

/-- A cut at the last character that satisfies `p`. -/
lemma cutLast?_append {after : List Char} (h : ∀ c ∈ after, p c = false) {c : Char} (hc : p c) (before : List Char) :
    cutLast? p (before ++ c :: after) = some (before, after) := by
  have hreverse : (before ++ c :: after).reverse = after.reverse ++ c :: before.reverse := by simp
  rw [cutLast?, hreverse, cut?_append (fun d hd => h d (List.mem_reverse.mp hd)) hc]
  simp

lemma cutLast?_eq_none (h : ∀ c ∈ cs, p c = false) : cutLast? p cs = none := by
  rw [cutLast?, cut?_eq_none fun c hc => h c (List.mem_reverse.mp hc), Option.map_none]

end Cut

/-! ### Pieces -/

lemma splitAt_eq_splitOn (sep : Char) (cs : List Char) : splitAt sep cs = cs.splitOn sep := by
  induction cs with
  | nil => rfl
  | cons c cs ih =>
    rw [List.splitOn_cons_eq_if_modifyHead, ← ih]
    by_cases hc : c = sep
    · rw [hc, if_pos (beq_self_eq_true sep), splitAt, List.foldr_cons, if_pos rfl, splitAt]
    · obtain ⟨p, ps, hcs, hcons⟩ := splitAt_cons_of_ne hc cs
      rw [if_neg (by simpa using hc), hcons, hcs, List.modifyHead_cons]

lemma not_mem_of_mem_splitAt {sep : Char} {piece : List Char} (h : piece ∈ splitAt sep cs) : sep ∉ piece := by
  induction cs generalizing piece with
  | nil =>
    obtain rfl := List.mem_singleton.mp h
    exact List.not_mem_nil
  | cons c cs ih =>
    by_cases hc : c = sep
    · subst hc
      rw [← List.nil_append (c :: cs), splitAt_append List.not_mem_nil] at h
      rcases List.mem_cons.mp h with rfl | h
      · exact List.not_mem_nil
      · exact ih h
    · obtain ⟨p, ps, hcs, hcons⟩ := splitAt_cons_of_ne hc cs
      rw [hcons] at h
      rw [hcs] at ih
      rcases List.mem_cons.mp h with rfl | h
      · exact List.not_mem_cons_of_ne_of_not_mem (Ne.symm hc) (ih List.mem_cons_self)
      · exact ih (List.mem_cons_of_mem _ h)

/-- The pieces of a text are joined by the separator and do not hold it. -/
lemma splitAt_eq_iff {sep : Char} {pieces : List (List Char)} :
    splitAt sep cs = pieces ↔ pieces ≠ [] ∧ (∀ p ∈ pieces, sep ∉ p) ∧ cs = [sep].intercalate pieces := by
  constructor
  · rintro rfl
    refine ⟨?_, fun p => not_mem_of_mem_splitAt, ?_⟩
    · rw [splitAt_eq_splitOn]
      exact List.splitOn_ne_nil sep cs
    · rw [splitAt_eq_splitOn]
      exact (List.intercalate_splitOn sep).symm
  · rintro ⟨hne, hpieces, rfl⟩
    rw [splitAt_eq_splitOn]
    exact List.splitOn_intercalate sep hpieces hne

end Totality.Text
