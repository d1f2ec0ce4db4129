import Mathlib.Computability.RegularExpressions
import Mathlib.Tactic.Lemma
import Totality.Proofs.Except
import Totality.Script.Compile

/-!
# How statements nest

The statements of a script are leaves and loops over leaves, and the last loop need not be closed. This is a regular
grammar of the kinds of statements, and the drafts accept exactly what follows it. A draft holds the statements it
took in, so that the commands of a script, spelled out again, are the statements they were made of.
-/

namespace Totality

/-! ### The grammar -/

namespace Statement

/-- What counts of a statement for the nesting. -/
inductive Kind where
  | leaf
  | opening
  | closing
  deriving DecidableEq

def kind : Statement → Kind
  | .leaf _ => .leaf
  | .openLoop _ => .opening
  | .closeLoop => .closing

open RegularExpression

/-- A loop that is not closed. -/
def unclosed : RegularExpression Kind := char Kind.opening * (char Kind.leaf).star

/-- What may stand anywhere in a script: a leaf, or a loop that is closed. -/
def item : RegularExpression Kind := char Kind.leaf + unclosed * char Kind.closing

/-- Leaves and closed loops, and then at most one loop that is not closed. -/
def grammar : RegularExpression Kind := item.star * (1 + unclosed)

/-- The kinds of the statements follow the grammar. -/
def Nested (sts : List Statement) : Prop := sts.map kind ∈ grammar.matches'

/-- What is wrong with a statement of which the kind does not fit in. -/
def nestingFault? : Statement → Option LineFault
  | .leaf _ => none
  | .openLoop _ => some .nestedLoop
  | .closeLoop => some .noOpenLoop

def leaf? : Statement → Option Leaf
  | .leaf l => some l
  | _ => none

end Statement

/-- A command as statements. -/
def Command.spelled : Command → List Statement
  | .leaf l => [.leaf l]
  | .loop l body => .openLoop l :: (body.map .leaf ++ [.closeLoop])

/-- The leaves of a command, in order. -/
def Command.leaves : Command → List Leaf
  | .leaf l => [l]
  | .loop _ body => body

/-- The statements are the commands spelled out, but for the end of the last loop, which may be missing. -/
def Command.Spells (sts : List Statement) (cs : List Command) : Prop :=
  sts = cs.flatMap spelled ∨ sts ++ [.closeLoop] = cs.flatMap spelled

/-! ### Drafts follow the grammar -/

namespace Draft

/-- The statements that a draft holds. -/
def spelled (d : Draft) : List Statement :=
  d.commands.reverse.flatMap Command.spelled ++
    match d.pending with
    | none => []
    | some (loop, body) => .openLoop loop :: body.reverse.map .leaf

/-- Take in statements one after another. -/
def addAll (d : Draft) (sts : List Statement) : Except LineFault Draft := sts.foldlM add d

@[simp] lemma addAll_nil (d : Draft) : d.addAll [] = .ok d := rfl

lemma addAll_cons (d : Draft) (st : Statement) (sts : List Statement) :
    d.addAll (st :: sts) = d.add st >>= fun d' => d'.addAll sts := rfl

lemma addAll_append (d : Draft) (sts sts' : List Statement) :
    d.addAll (sts ++ sts') = d.addAll sts >>= fun d' => d'.addAll sts' := List.foldlM_append ..

/-- A draft that takes in a statement holds it last. -/
lemma spelled_of_add {d d' : Draft} {st : Statement} (h : d.add st = .ok d') : d'.spelled = d.spelled ++ [st] := by
  obtain ⟨commands, pending⟩ := d
  cases st <;> cases pending <;> cases h <;> simp [spelled, close, Command.spelled]

lemma spelled_of_addAll {d d' : Draft} {sts : List Statement} (h : d.addAll sts = .ok d') :
    d'.spelled = d.spelled ++ sts := by
  induction sts generalizing d with
  | nil =>
    cases h
    rw [List.append_nil]
  | cons st sts ih =>
    rw [addAll_cons, bind_eq_ok] at h
    obtain ⟨d₁, hadd, h⟩ := h
    rw [ih h, spelled_of_add hadd, List.append_assoc]
    rfl

/-- A statement that a draft refuses would open a loop within another, or close one where none is open. -/
lemma nestingFault?_of_add {d : Draft} {st : Statement} {fault : LineFault} (h : d.add st = .error fault) :
    st.nestingFault? = some fault := by
  obtain ⟨commands, pending⟩ := d
  cases st <;> cases pending <;> cases h <;> rfl

end Draft

/-! ### What a draft holds follows the grammar -/

namespace Statement

open RegularExpression

lemma mem_star_char_iff {α : Type} {a : α} {w : List α} : w ∈ (char a).star.matches' ↔ ∀ x ∈ w, x = a := by
  simp only [matches'_star, matches'_char, Language.mem_kstar]
  constructor
  · rintro ⟨words, rfl, hwords⟩ x hx
    obtain ⟨y, hy, hx⟩ := List.mem_flatten.mp hx
    rw [hwords y hy] at hx
    exact List.mem_singleton.mp hx
  · intro h
    refine ⟨w.map fun _ => [a], ?_, List.forall_mem_map.mpr fun _ _ => rfl⟩
    rw [List.eq_replicate_of_mem h]
    simp

lemma exists_leaves {sts : List Statement} (h : ∀ st ∈ sts, st.kind = .leaf) :
    ∃ leaves : List Leaf, sts = leaves.map .leaf := by
  induction sts with
  | nil => exact ⟨[], rfl⟩
  | cons st sts ih =>
    obtain ⟨hst, hsts⟩ := List.forall_mem_cons.mp h
    obtain ⟨leaves, rfl⟩ := ih hsts
    cases st with
    | leaf l => exact ⟨l :: leaves, rfl⟩
    | openLoop => cases hst
    | closeLoop => cases hst

lemma kinds_unclosed (l : Loop) (body : List Leaf) :
    (openLoop l :: body.map leaf).map kind ∈ unclosed.matches' := by
  have hleaves : (body.map leaf).map kind ∈ (char Kind.leaf).star.matches' := by
    rw [mem_star_char_iff, List.forall_mem_map, List.forall_mem_map]
    exact fun _ _ => rfl
  have hopening : [Kind.opening] ∈ (char Kind.opening).matches' := rfl
  exact Language.append_mem_mul hopening hleaves

lemma kinds_spelled (c : Command) : c.spelled.map kind ∈ item.matches' := by
  cases c with
  | leaf l => exact Or.inl rfl
  | loop l body =>
    rw [Command.spelled, ← List.cons_append, List.map_append]
    exact Or.inr (Language.append_mem_mul (kinds_unclosed l body) rfl)

lemma kinds_flatMap_spelled (cs : List Command) :
    (cs.flatMap Command.spelled).map kind ∈ item.star.matches' := by
  rw [List.map_flatMap, List.flatMap_def]
  exact Language.join_mem_kstar (List.forall_mem_map.mpr fun c _ => kinds_spelled c)

lemma nested_spelled (d : Draft) : Nested d.spelled := by
  obtain ⟨commands, pending⟩ := d
  rw [Nested, Draft.spelled, List.map_append]
  refine Language.append_mem_mul (kinds_flatMap_spelled _) ?_
  cases pending with
  | none => exact Or.inl rfl
  | some p => exact Or.inr (kinds_unclosed p.1 p.2.reverse)

end Statement

/-! ### Drafts take in what follows the grammar -/

namespace Draft

open Statement RegularExpression

lemma addAll_leaves (commands : List Command) (l : Loop) (leaves body : List Leaf) :
    addAll ⟨commands, some (l, body)⟩ (leaves.map .leaf) = .ok ⟨commands, some (l, leaves.reverse ++ body)⟩ := by
  induction leaves generalizing body with
  | nil => rfl
  | cons a leaves ih =>
    rw [List.map_cons, addAll_cons, List.reverse_cons, List.append_assoc]
    exact ih (a :: body)

lemma addAll_unclosed {sts : List Statement} (h : sts.map kind ∈ unclosed.matches') (commands : List Command) :
    ∃ pending, addAll ⟨commands, none⟩ sts = .ok ⟨commands, some pending⟩ := by
  obtain ⟨opening, hopening, kinds, hkinds, hsts⟩ := Language.mem_mul.mp h
  obtain rfl : opening = [Kind.opening] := hopening
  obtain ⟨st, rest, rfl, hst, rfl⟩ := List.map_eq_cons_iff.mp hsts.symm
  rw [mem_star_char_iff, List.forall_mem_map] at hkinds
  obtain ⟨leaves, rfl⟩ := exists_leaves hkinds
  cases st with
  | openLoop l => exact ⟨_, addAll_leaves commands l leaves []⟩
  | leaf => cases hst
  | closeLoop => cases hst

lemma addAll_item {sts : List Statement} (h : sts.map kind ∈ item.matches') (commands : List Command) :
    ∃ commands', addAll ⟨commands, none⟩ sts = .ok ⟨commands', none⟩ := by
  rcases h with h | h
  · obtain ⟨st, rfl, hst⟩ := List.map_eq_singleton_iff.mp h
    cases st with
    | leaf l => exact ⟨_, rfl⟩
    | openLoop => cases hst
    | closeLoop => cases hst
  · obtain ⟨kinds, hkinds, closing, hclosing, hsts⟩ := Language.mem_mul.mp h
    obtain rfl : closing = [Kind.closing] := hclosing
    obtain ⟨unclosed, last, rfl, rfl, hlast⟩ := List.map_eq_append_iff.mp hsts.symm
    obtain ⟨st, rfl, hst⟩ := List.map_eq_singleton_iff.mp hlast
    obtain ⟨pending, hpending⟩ := addAll_unclosed hkinds commands
    rw [addAll_append, hpending]
    cases st with
    | closeLoop => exact ⟨_, rfl⟩
    | leaf => cases hst
    | openLoop => cases hst

lemma addAll_items {words : List (List Kind)} (hwords : ∀ w ∈ words, w ∈ item.matches') {sts : List Statement}
    (h : sts.map kind = words.flatten) (commands : List Command) :
    ∃ commands', addAll ⟨commands, none⟩ sts = .ok ⟨commands', none⟩ := by
  induction words generalizing sts commands with
  | nil =>
    rw [List.map_eq_nil_iff.mp h]
    exact ⟨commands, rfl⟩
  | cons w words ih =>
    obtain ⟨hw, hrest⟩ := List.forall_mem_cons.mp hwords
    rw [List.flatten_cons] at h
    obtain ⟨first, others, rfl, rfl, hothers⟩ := List.map_eq_append_iff.mp h
    obtain ⟨commands', hfirst⟩ := addAll_item hw commands
    rw [addAll_append, hfirst]
    exact ih hrest hothers commands'

/-- A draft can be made of statements exactly when their kinds follow the grammar. -/
lemma nested_iff {sts : List Statement} : Nested sts ↔ ∃ d, addAll {} sts = .ok d := by
  constructor
  · intro h
    obtain ⟨closed, hclosed, last, hlast, hsts⟩ := Language.mem_mul.mp h
    obtain ⟨words, rfl, hwords⟩ := Language.mem_kstar.mp hclosed
    obtain ⟨items, unclosed, rfl, hitems, rfl⟩ := List.map_eq_append_iff.mp hsts.symm
    obtain ⟨commands, hcommands⟩ := addAll_items hwords hitems []
    rw [addAll_append, hcommands]
    rcases hlast with hnone | hlast
    · rw [List.map_eq_nil_iff.mp hnone]
      exact ⟨_, rfl⟩
    · obtain ⟨pending, hpending⟩ := addAll_unclosed hlast commands
      exact ⟨_, hpending⟩
  · rintro ⟨d, hd⟩
    rw [← List.nil_append sts, ← show spelled {} = [] from rfl, ← spelled_of_addAll hd]
    exact nested_spelled d

/-! ### The commands of a draft -/

lemma addAll_spelled (c : Command) (commands : List Command) :
    addAll ⟨commands, none⟩ c.spelled = .ok ⟨c :: commands, none⟩ := by
  cases c with
  | leaf l => rfl
  | loop l body =>
    have hopened : add ⟨commands, none⟩ (.openLoop l) = .ok ⟨commands, some (l, [])⟩ := rfl
    have hclosed : addAll ⟨commands, some (l, body.reverse ++ [])⟩ [.closeLoop] =
        .ok ⟨.loop l (body.reverse ++ []).reverse :: commands, none⟩ := rfl
    rw [List.append_nil, List.reverse_reverse] at hclosed
    calc addAll ⟨commands, none⟩ (Command.loop l body).spelled
        = addAll ⟨commands, some (l, [])⟩ (body.map .leaf ++ [.closeLoop]) := rfl
      _ = addAll ⟨commands, some (l, body.reverse ++ [])⟩ [.closeLoop] := by
        rw [addAll_append, addAll_leaves]
        rfl
      _ = .ok ⟨.loop l body :: commands, none⟩ := by rw [List.append_nil, hclosed]

lemma addAll_flatMap_spelled (cs commands : List Command) :
    addAll ⟨commands, none⟩ (cs.flatMap Command.spelled) = .ok ⟨cs.reverse ++ commands, none⟩ := by
  induction cs generalizing commands with
  | nil => rfl
  | cons c cs ih =>
    rw [List.flatMap_cons, addAll_append, addAll_spelled, List.reverse_cons, List.append_assoc]
    exact ih (c :: commands)

/-- The commands of a draft, when it is closed, are those that its statements spell. -/
lemma spells_iff {sts : List Statement} {cs : List Command} :
    Command.Spells sts cs ↔ ∃ d, addAll {} sts = .ok d ∧ d.script.commands = cs := by
  constructor
  · rintro (rfl | h)
    · exact ⟨_, addAll_flatMap_spelled cs [], by simp [script, close]⟩
    · -- the draft of the statements that are there is one step behind
      have hclosed := addAll_flatMap_spelled cs []
      rw [← h, addAll_append, bind_eq_ok] at hclosed
      obtain ⟨⟨commands, pending⟩, hd, hclosed⟩ := hclosed
      refine ⟨_, hd, ?_⟩
      cases pending with
      | none => cases hclosed
      | some p =>
        have hclose : close ⟨commands, some p⟩ = ⟨cs.reverse ++ [], none⟩ := Except.ok.inj hclosed
        rw [script, hclose, List.append_nil, List.reverse_reverse]
  · rintro ⟨⟨commands, pending⟩, hd, rfl⟩
    have hspelled : spelled ⟨commands, pending⟩ = sts := spelled_of_addAll hd
    rw [← hspelled]
    cases pending with
    | none => exact Or.inl (by simp [spelled, script, close])
    | some p => exact Or.inr (by simp [spelled, script, close, Command.spelled])

end Draft

/-! ### The leaves of a script -/

namespace Command

lemma filterMap_spelled (c : Command) : c.spelled.filterMap Statement.leaf? = c.leaves := by
  cases c with
  | leaf l => rfl
  | loop l body =>
    have hbody : (body.map Statement.leaf).filterMap Statement.leaf? = body := by
      rw [List.filterMap_map]
      exact List.filterMap_some
    calc (Command.loop l body).spelled.filterMap Statement.leaf?
        = (body.map Statement.leaf ++ [Statement.closeLoop]).filterMap Statement.leaf? := rfl
      _ = body ++ [] := by
        rw [List.filterMap_append, hbody]
        rfl
      _ = body := List.append_nil body

lemma openLoop_mem_of_spells {sts : List Statement} {cs : List Command} (h : Spells sts cs) {l : Loop}
    {body : List Leaf} (hc : loop l body ∈ cs) : .openLoop l ∈ sts := by
  have hspelled : .openLoop l ∈ cs.flatMap spelled := List.mem_flatMap.mpr ⟨_, hc, List.mem_cons_self⟩
  rcases h with rfl | h
  · exact hspelled
  · rw [← h] at hspelled
    exact (List.mem_append.mp hspelled).resolve_right (by simp)

/-- Every leaf among the statements occurs once among the commands. -/
lemma flatMap_leaves_of_spells {sts : List Statement} {cs : List Command} (h : Spells sts cs) :
    cs.flatMap leaves = sts.filterMap Statement.leaf? := by
  have hall : (cs.flatMap spelled).filterMap Statement.leaf? = cs.flatMap leaves := by
    simp only [List.filterMap_flatMap, filterMap_spelled]
  rcases h with rfl | h
  · exact hall.symm
  · rw [← hall, ← h, List.filterMap_append]
    exact List.append_nil _

end Command

end Totality
