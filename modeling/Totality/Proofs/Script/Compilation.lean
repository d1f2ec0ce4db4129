import Totality.Proofs.Script.Nesting

/-!
# Which texts are scripts

A text compiles exactly when every line of it that counts is a statement by itself and the statements nest. The first
line with which this is no longer so is the one that is reported.
-/

namespace Totality

open Text

namespace Script

/-- The lines that count, trimmed. -/
def significant (raws : List (List Char)) : List (List Char) := (raws.map trim).filter isSignificant

/-- The lines that count make the statements, one by one. -/
def Reads (raws : List (List Char)) (sts : List Statement) : Prop :=
  List.Forall₂ (fun line st => Statement.read line = .ok st) (significant raws) sts

/-- The lines that count make statements that nest. -/
def Admissible (raws : List (List Char)) : Prop := ∃ sts, Reads raws sts ∧ Statement.Nested sts

lemma reads_nil {sts : List Statement} : Reads [] sts ↔ sts = [] := List.forall₂_nil_left_iff

lemma reads_cons_of_significant {raw : List Char} (h : isSignificant (trim raw)) (raws : List (List Char))
    (sts : List Statement) :
    Reads (raw :: raws) sts ↔ ∃ st rest, Statement.read (trim raw) = .ok st ∧ Reads raws rest ∧ sts = st :: rest := by
  rw [Reads, significant, List.map_cons, List.filter_cons_of_pos h, List.forall₂_cons_left_iff]
  rfl

lemma reads_cons_of_not_significant {raw : List Char} (h : ¬isSignificant (trim raw)) (raws : List (List Char))
    (sts : List Statement) : Reads (raw :: raws) sts ↔ Reads raws sts := by
  rw [Reads, significant, List.map_cons, List.filter_cons_of_neg h]
  rfl

lemma exists_read_of_reads {raws : List (List Char)} {sts : List Statement} (h : Reads raws sts) :
    ∀ st ∈ sts, ∃ line, Statement.read line = .ok st := by
  rw [Reads] at h
  generalize significant raws = lines at h
  induction h with
  | nil => exact List.forall_mem_nil _
  | cons hst _ ih => exact List.forall_mem_cons.mpr ⟨⟨_, hst⟩, ih⟩

/-! ### Lines and their numbers -/

/-- The lines that count, with their numbers from `n` on. -/
def numbered (n : Nat) (raws : List (List Char)) : List (Nat × List Char) :=
  ((raws.zipIdx n).map fun (line, n) => (n, trim line)).filter fun p => isSignificant p.2

/-- The draft after a line that counts. -/
def addLine (d : Draft) (line : List Char) : Except LineFault Draft := Statement.read line >>= d.add

section Step

variable {d d' : Draft} {n : Nat} {raw : List Char}

lemma numbered_of_significant (h : isSignificant (trim raw)) (n : Nat) (raws : List (List Char)) :
    numbered n (raw :: raws) = (n, trim raw) :: numbered (n + 1) raws := by
  simp only [numbered, List.zipIdx_cons, List.map_cons, List.filter_cons, h, if_true]

lemma numbered_of_not_significant (h : ¬isSignificant (trim raw)) (n : Nat) (raws : List (List Char)) :
    numbered n (raw :: raws) = numbered (n + 1) raws := by
  simp only [numbered, List.zipIdx_cons, List.map_cons, List.filter_cons, h, Bool.false_eq_true, if_false]

lemma addLines_of_addLine_ok (h : isSignificant (trim raw)) (hadd : addLine d (trim raw) = .ok d')
    (raws : List (List Char)) : addLines d (numbered n (raw :: raws)) = addLines d' (numbered (n + 1) raws) := by
  rw [numbered_of_significant h, addLines]
  rw [addLine] at hadd
  rw [hadd]

lemma addLines_of_addLine_error {fault : LineFault} (h : isSignificant (trim raw))
    (hadd : addLine d (trim raw) = .error fault) (raws : List (List Char)) :
    addLines d (numbered n (raw :: raws)) = .error ⟨n, fault⟩ := by
  rw [numbered_of_significant h, addLines]
  rw [addLine] at hadd
  rw [hadd]

end Step

/-- Lines are taken in when they make statements that are taken in. -/
lemma addLines_eq_ok_iff {d d' : Draft} {n : Nat} {raws : List (List Char)} :
    addLines d (numbered n raws) = .ok d' ↔ ∃ sts, Reads raws sts ∧ d.addAll sts = .ok d' := by
  induction raws generalizing d n with
  | nil =>
    have hnil : addLines d (numbered n []) = .ok d := rfl
    simp only [reads_nil, exists_eq_left, hnil, Draft.addAll_nil, Except.ok.injEq]
  | cons raw raws ih =>
    by_cases hraw : isSignificant (trim raw)
    · simp only [reads_cons_of_significant hraw]
      constructor
      · intro h
        cases hadd : addLine d (trim raw) with
        | ok d₁ =>
          rw [addLines_of_addLine_ok hraw hadd] at h
          obtain ⟨st, hst, hadd⟩ := bind_eq_ok.mp hadd
          obtain ⟨sts, hsts, h⟩ := ih.mp h
          exact ⟨st :: sts, ⟨st, sts, hst, hsts, rfl⟩, bind_eq_ok.mpr ⟨d₁, hadd, h⟩⟩
        | error fault =>
          rw [addLines_of_addLine_error hraw hadd] at h
          cases h
      · rintro ⟨_, ⟨st, sts, hst, hsts, rfl⟩, h⟩
        obtain ⟨d₁, hadd, h⟩ := bind_eq_ok.mp h
        rw [addLines_of_addLine_ok hraw (bind_eq_ok.mpr ⟨st, hst, hadd⟩)]
        exact ih.mpr ⟨sts, hsts, h⟩
    · simp only [reads_cons_of_not_significant hraw, numbered_of_not_significant hraw]
      exact ih

lemma addLines_append (d : Draft) (xs ys : List (Nat × List Char)) :
    addLines d (xs ++ ys) = addLines d xs >>= fun d' => addLines d' ys := by
  induction xs generalizing d with
  | nil => rfl
  | cons x xs ih =>
    rw [List.cons_append, addLines, addLines]
    split
    · exact ih _
    · rfl

lemma numbered_append (n : Nat) (raws raws' : List (List Char)) :
    numbered n (raws ++ raws') = numbered n raws ++ numbered (n + raws.length) raws' := by
  rw [numbered, List.zipIdx_append, List.map_append, List.filter_append]
  rfl

/-- The first line that cannot be taken in is reported. -/
lemma addLines_eq_error_iff {d : Draft} {n : Nat} {raws : List (List Char)} {e : CompileError} :
    addLines d (numbered n raws) = .error e ↔
      ∃ before raw after d', raws = before ++ raw :: after ∧ e.line = n + before.length ∧
        addLines d (numbered n before) = .ok d' ∧ isSignificant (trim raw) ∧
        addLine d' (trim raw) = .error e.fault := by
  constructor
  · intro h
    induction raws generalizing d n with
    | nil => cases h
    | cons raw raws ih =>
      by_cases hraw : isSignificant (trim raw)
      · cases hadd : addLine d (trim raw) with
        | ok d₁ =>
          rw [addLines_of_addLine_ok hraw hadd] at h
          obtain ⟨before, raw', after, d', rfl, hline, hbefore, hraw', hadd'⟩ := ih h
          refine ⟨raw :: before, raw', after, d', rfl, ?_, ?_, hraw', hadd'⟩
          · rw [hline, List.length_cons]
            omega
          · rw [addLines_of_addLine_ok hraw hadd, hbefore]
        | error fault =>
          rw [addLines_of_addLine_error hraw hadd] at h
          cases h
          exact ⟨[], raw, raws, d, rfl, rfl, rfl, hraw, hadd⟩
      · rw [numbered_of_not_significant hraw] at h
        obtain ⟨before, raw', after, d', rfl, hline, hbefore, hraw', hadd'⟩ := ih h
        refine ⟨raw :: before, raw', after, d', rfl, ?_, ?_, hraw', hadd'⟩
        · rw [hline, List.length_cons]
          omega
        · rw [numbered_of_not_significant hraw, hbefore]
  · rintro ⟨before, raw, after, d', rfl, hline, hbefore, hraw, hadd⟩
    rw [numbered_append, addLines_append, hbefore]
    exact (addLines_of_addLine_error hraw hadd after).trans (hline ▸ rfl)

/-! ### The first line that breaks -/

lemma admissible_iff (n : Nat) (raws : List (List Char)) :
    Admissible raws ↔ ∃ d, addLines {} (numbered n raws) = .ok d := by
  simp only [Admissible, Draft.nested_iff, addLines_eq_ok_iff]
  constructor
  · rintro ⟨sts, hsts, d, hd⟩
    exact ⟨d, sts, hsts, hd⟩
  · rintro ⟨d, sts, hsts, hd⟩
    exact ⟨sts, hsts, d, hd⟩

/-- What is wrong with a line behind lines that were taken in. -/
lemma addLine_eq_error_iff {before : List (List Char)} {raw : List Char} {n : Nat} {d : Draft}
    (hbefore : addLines {} (numbered n before) = .ok d) (fault : LineFault) :
    isSignificant (trim raw) ∧ addLine d (trim raw) = .error fault ↔
      ¬Admissible (before ++ [raw]) ∧
        (Statement.read (trim raw) = .error fault ∨
          ∃ st, Statement.read (trim raw) = .ok st ∧ st.nestingFault? = some fault) := by
  have hline : addLines {} (numbered n (before ++ [raw])) = addLines d (numbered (n + before.length) [raw]) := by
    rw [numbered_append, addLines_append, hbefore]
    rfl
  rw [admissible_iff n, hline]
  constructor
  · rintro ⟨hraw, hadd⟩
    rw [addLines_of_addLine_error hraw hadd]
    refine ⟨by simp, (bind_eq_error.mp hadd).imp_right ?_⟩
    rintro ⟨st, hst, hadd⟩
    exact ⟨st, hst, Draft.nestingFault?_of_add hadd⟩
  · rintro ⟨hnot, hfault⟩
    have hraw : isSignificant (trim raw) := by
      by_contra hraw
      rw [numbered_of_not_significant hraw] at hnot
      exact hnot ⟨d, rfl⟩
    cases hadd : addLine d (trim raw) with
    | ok d' =>
      rw [addLines_of_addLine_ok hraw hadd] at hnot
      exact absurd ⟨d', rfl⟩ hnot
    | error fault' =>
      refine ⟨hraw, congrArg _ ?_⟩
      rcases hfault with hread | ⟨st, hst, hfault⟩
      · rw [addLine, hread] at hadd
        exact (Except.error.inj hadd).symm
      · rw [addLine, hst] at hadd
        exact Option.some.inj ((Draft.nestingFault?_of_add hadd).symm.trans hfault)

/-! ### Compiling -/

lemma compile_eq_ok_iff {text : List Char} {script : Script} :
    compile text = .ok script ↔ ∃ d, addLines {} (numbered 1 (lines text)) = .ok d ∧ d.script = script := by
  rw [compile, significantLines, ← numbered]
  exact map_eq_ok

lemma compile_eq_error_iff {text : List Char} {e : CompileError} :
    compile text = .error e ↔ addLines {} (numbered 1 (lines text)) = .error e := by
  rw [compile, significantLines, ← numbered]
  exact map_eq_error

/-- A script, spelled out, is what its lines say. -/
lemma compile_iff_spells {text : List Char} {script : Script} :
    compile text = .ok script ↔ ∃ sts, Reads (lines text) sts ∧ Command.Spells sts script.commands := by
  rw [compile_eq_ok_iff]
  constructor
  · rintro ⟨d, hd, rfl⟩
    obtain ⟨sts, hsts, hd⟩ := addLines_eq_ok_iff.mp hd
    exact ⟨sts, hsts, Draft.spells_iff.mpr ⟨d, hd, rfl⟩⟩
  · rintro ⟨sts, hsts, hspells⟩
    obtain ⟨d, hd, hcommands⟩ := Draft.spells_iff.mp hspells
    exact ⟨d, addLines_eq_ok_iff.mpr ⟨sts, hsts, hd⟩, congrArg Script.mk hcommands⟩

/-- The loops of a script are those that its lines open. -/
lemma exists_read_of_compile {text : List Char} {script : Script} (h : compile text = .ok script) {l : Loop}
    {body : List Leaf} (hc : .loop l body ∈ script.commands) : ∃ line, Statement.read line = .ok (.openLoop l) := by
  obtain ⟨sts, hsts, hspells⟩ := compile_iff_spells.mp h
  exact exists_read_of_reads hsts _ (Command.openLoop_mem_of_spells hspells hc)

/-- A text compiles if and only if the lines of it that count are statements that nest. Then the script, spelled out, is
what the lines say, and every leaf among them occurs in it once, in order. Otherwise the error is that of the first line
with which the lines are no longer statements that nest; a line that is no statement is reported as such. -/
theorem compile_iff_admissible (text : List Char) :
    ((∃ script, compile text = .ok script) ↔ Admissible (lines text)) ∧
      (∀ script, compile text = .ok script ↔
        ∃ sts, Reads (lines text) sts ∧ Command.Spells sts script.commands ∧
          script.commands.flatMap Command.leaves = sts.filterMap Statement.leaf?) ∧
      ∀ e, compile text = .error e ↔
        ∃ before raw after, lines text = before ++ raw :: after ∧ e.line = before.length + 1 ∧
          Admissible before ∧ ¬Admissible (before ++ [raw]) ∧
          (Statement.read (trim raw) = .error e.fault ∨
            ∃ st, Statement.read (trim raw) = .ok st ∧ st.nestingFault? = some e.fault) := by
  refine ⟨?_, fun script => ?_, fun e => ?_⟩
  · simp only [compile_eq_ok_iff, admissible_iff 1]
    exact ⟨fun ⟨_, d, hd, _⟩ => ⟨d, hd⟩, fun ⟨d, hd⟩ => ⟨_, d, hd, rfl⟩⟩
  · rw [compile_iff_spells]
    constructor
    · rintro ⟨sts, hsts, hspells⟩
      exact ⟨sts, hsts, hspells, Command.flatMap_leaves_of_spells hspells⟩
    · rintro ⟨sts, hsts, hspells, -⟩
      exact ⟨sts, hsts, hspells⟩
  · rw [compile_eq_error_iff, addLines_eq_error_iff]
    constructor
    · rintro ⟨before, raw, after, d, hlines, hline, hbefore, hraw⟩
      exact ⟨before, raw, after, hlines, hline.trans (Nat.add_comm ..), (admissible_iff 1 before).mpr ⟨d, hbefore⟩,
        (addLine_eq_error_iff hbefore e.fault).mp hraw⟩
    · rintro ⟨before, raw, after, hlines, hline, hbefore, hraw⟩
      obtain ⟨d, hbefore⟩ := (admissible_iff 1 before).mp hbefore
      exact ⟨before, raw, after, d, hlines, hline.trans (Nat.add_comm ..), hbefore,
        (addLine_eq_error_iff hbefore e.fault).mpr hraw⟩

/-- Lines that do not count have numbers all the same. -/
example : compile "# plan\n\nENDFOR".toList = .error ⟨3, .noOpenLoop⟩ := by decide +kernel

end Script

end Totality
