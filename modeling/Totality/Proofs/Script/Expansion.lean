import Totality.Proofs.Script.Compilation
import Totality.Proofs.Script.Slots
import Totality.Proofs.Script.SweepPasses

/-!
# Loops unrolled

A script stands for a list of slots, its loops unrolled pass by pass. The actions of the script are the actions in these
slots, one for each, or the work ends with the first slot that has none.
-/

namespace Totality

/-! ### The shifts of a cadence -/

namespace Cadence

/-- The offset of a repetition in seconds, summed up one delay at a time. -/
def offset (c : Cadence) : Nat → Binary64
  | 0 => .zero false
  | k + 1 => c.offset k + c.direction.sign * c.delay

/-- By how much a repetition is shifted. -/
def shift (c : Cadence) (k : Nat) : Option Duration := wholeCentiseconds (c.offset k)

lemma offsets_eq (c : Cadence) (n k : Nat) (acc : List Binary64) :
    offsets (c.direction.sign * c.delay) n (c.offset k) acc = acc.reverse ++ (List.range' k n).map c.offset := by
  induction n generalizing k acc with
  | zero => exact (List.append_nil _).symm
  | succ n ih =>
    rw [offsets, List.range'_succ, List.map_cons, ← offset, ih, List.reverse_cons, List.append_assoc]
    rfl

@[simp] lemma shift_zero (c : Cadence) : c.shift 0 = some .zero := by
  have hzero : wholeCentiseconds (.zero false) = some .zero := by decide +kernel
  exact hzero

lemma dvd_of_shift {c : Cadence} {k : Nat} {d : Duration} (h : c.shift k = some d) : 10000000 ∣ d.nanos := by
  rw [shift, wholeCentiseconds] at h
  split_ifs at h
  cases h
  rw [Duration.nanos_ofMicros]
  omega

end Cadence

/-! ### The slots of a script -/

namespace Command

/-- The slots of a command: every pass of a loop has one for each leaf. -/
def slots : Command → List Slot
  | .leaf l => [.ofLeaf l]
  | .loop (.sweep s) body => (List.range s.passes).flatMap fun k => body.map (.inSweep (s.value k))
  | .loop (.cadence c) body => (List.range c.iterations).flatMap fun k => body.map (.inCadence (c.shift k) (k + 1))

/-- The command is a sweep that stays below its end for ever. -/
def Endless : Command → Prop
  | .loop (.sweep s) _ => s.Stalls
  | _ => False

/-- The checks of its statement hold for the numbers of a sweep. -/
def Admitted : Command → Prop
  | .loop (.sweep s) _ => s.Admitted
  | _ => True

section Actions

variable {table : EventTable Instant}

lemma mapM_place_map {f : Leaf → Slot} {g : Leaf → Except ResolutionError (Action Instant)}
    (h : ∀ l, (f l).place table = g l) (body : List Leaf) : (body.map f).mapM (Slot.place table) = body.mapM g := by
  rw [List.mapM_map]
  exact congrArg (List.mapM · body) (funext h)

lemma mapM_place_sweep {s : Sweep} (h : s.Admitted) (body : List Leaf) :
    (slots (.loop (.sweep s) body)).mapM (Slot.place table) =
      (s.values.1.mapM (Sweep.pass table body)).map List.flatten := by
  rw [slots, mapM_flatMap, Sweep.values_fst h, List.mapM_map]
  congr 2
  funext k
  exact mapM_place_map (Slot.place_inSweep table (s.value k)) body

lemma mapM_place_cadence (c : Cadence) (body : List Leaf) :
    (slots (.loop (.cadence c) body)).mapM (Slot.place table) =
      (((List.range c.iterations).map fun k => (c.offset k, k + 1)).mapM fun p =>
        Cadence.pass table body p.2 p.1).map List.flatten := by
  rw [slots, mapM_flatMap, List.mapM_map]
  congr 2
  funext k
  exact mapM_place_map (Slot.place_inCadence table (k + 1) (c.offset k)) body

lemma zipIdx_offsets (c : Cadence) :
    (Cadence.offsets (c.direction.sign * c.delay) c.iterations (.zero false) []).zipIdx 1 =
      (List.range c.iterations).map fun k => (c.offset k, k + 1) := by
  have hoffsets := Cadence.offsets_eq c c.iterations 0 []
  rw [← Cadence.offset, hoffsets, List.reverse_nil, List.nil_append, ← List.range_eq_range']
  exact List.ext_getElem (by simp) (by simp [Nat.add_comm])

lemma actions_leaf (l : Leaf) :
    (leaf l).actions table = ((leaf l).slots.mapM (Slot.place table)).mapError .unresolved := by
  rw [slots, List.mapM_cons, Slot.place_ofLeaf, actions]
  cases l.place table l.event with
  | error e => rfl
  | ok a => rfl

lemma actions_sweep {s : Sweep} (h : s.Admitted) (body : List Leaf) :
    (loop (.sweep s) body).actions table =
      ((loop (.sweep s) body).slots.mapM (Slot.place table)).mapError .unresolved >>= fun as =>
        if s.Stalls then .error (.endless s) else .ok as := by
  have hends : s.values.2 ↔ s.Stalls := by
    by_cases hstalls : s.Stalls
    · exact iff_of_true (Sweep.values_of_stalls h hstalls) hstalls
    · rw [(Sweep.values_of_not_stalls h hstalls).1]
      exact iff_of_false nofun hstalls
  rw [mapM_place_sweep h, actions, Loop.actions]
  generalize s.values = p at hends
  obtain ⟨values, endless⟩ := p
  dsimp only at hends ⊢
  cases values.mapM (Sweep.pass table body) with
  | error e => rfl
  | ok passes => exact if_congr hends rfl rfl

lemma actions_cadence (c : Cadence) (body : List Leaf) :
    (loop (.cadence c) body).actions table =
      ((loop (.cadence c) body).slots.mapM (Slot.place table)).mapError .unresolved := by
  rw [mapM_place_cadence, actions, Loop.actions, zipIdx_offsets]
  split
  · next e he =>
    exact (mapError_eq_error.mpr ⟨e, map_eq_error.mpr he, rfl⟩).symm
  · next passes hpasses =>
    exact (mapError_eq_ok.mpr (map_eq_ok.mpr ⟨passes, hpasses, rfl⟩)).symm

lemma actions_eq_ok_iff {c : Command} (h : c.Admitted) {as : List (Action Instant)} :
    c.actions table = .ok as ↔ ¬c.Endless ∧ c.slots.mapM (Slot.place table) = .ok as := by
  cases c with
  | leaf l => simp only [actions_leaf, mapError_eq_ok, Endless, not_false_eq_true, true_and]
  | loop l body =>
    cases l with
    | sweep s =>
      simp only [actions_sweep h, bind_eq_ok, mapError_eq_ok, Endless]
      constructor
      · rintro ⟨as', has, h⟩
        split_ifs at h with hstalls
        cases h
        exact ⟨hstalls, has⟩
      · rintro ⟨hstalls, has⟩
        exact ⟨as, has, if_neg hstalls⟩
    | cadence c => simp only [actions_cadence, mapError_eq_ok, Endless, not_false_eq_true, true_and]

lemma actions_eq_unresolved_iff {c : Command} (h : c.Admitted) {e : ResolutionError} :
    c.actions table = .error (.unresolved e) ↔ c.slots.mapM (Slot.place table) = .error e := by
  have hmap : ∀ x : Except ResolutionError (List (Action Instant)),
      x.mapError .unresolved = .error (ScheduleError.unresolved e) ↔ x = .error e := by
    simp only [mapError_eq_error, ScheduleError.unresolved.injEq, exists_eq_right, implies_true]
  cases c with
  | leaf l => rw [actions_leaf, hmap]
  | loop l body =>
    cases l with
    | sweep s =>
      -- what a sweep without end is refused for behind its slots is another error
      rw [actions_sweep h, bind_eq_error, hmap]
      refine or_iff_left ?_
      rintro ⟨as, -, h⟩
      split_ifs at h
      cases h
    | cadence c => rw [actions_cadence, hmap]

/-- With an action in every slot, a command gives actions unless it has no end. -/
lemma actions_of_forall_makes {c : Command} (h : c.Admitted) (hmade : ∀ o ∈ c.slots, ∃ a, o.Makes table a) :
    ¬c.Endless ∧ (∃ as, c.actions table = .ok as) ∨ c.Endless ∧ ∃ s, c.actions table = .error (.endless s) := by
  simp only [← Slot.place_eq_ok_iff] at hmade
  obtain ⟨as, has⟩ := exists_mapM_eq_ok_iff.mpr hmade
  by_cases hend : c.Endless
  · refine Or.inr ⟨hend, ?_⟩
    cases hactions : c.actions table with
    | ok as' => exact absurd hend ((actions_eq_ok_iff h).mp hactions).1
    | error e =>
      cases e with
      | unresolved e =>
        rw [(actions_eq_unresolved_iff h).mp hactions] at has
        cases has
      | endless s => exact ⟨s, rfl⟩
  · exact Or.inl ⟨hend, as, (actions_eq_ok_iff h).mpr ⟨hend, has⟩⟩

variable {cs : List Command}

lemma mapM_actions_eq_ok_iff (h : ∀ c ∈ cs, c.Admitted) {ass : List (List (Action Instant))} :
    cs.mapM (actions table) = .ok ass ↔
      (∀ c ∈ cs, ¬c.Endless) ∧ List.Forall₂ (fun c as => c.slots.mapM (Slot.place table) = .ok as) cs ass := by
  rw [mapM_eq_ok_iff]
  induction cs generalizing ass with
  | nil =>
    simp only [List.forall₂_nil_left_iff]
    exact (and_iff_right (List.forall_mem_nil _)).symm
  | cons c cs ih =>
    obtain ⟨hc, hcs⟩ := List.forall_mem_cons.mp h
    simp only [List.forall₂_cons_left_iff, actions_eq_ok_iff hc, ih hcs, List.forall_mem_cons]
    constructor
    · rintro ⟨as, rest, ⟨hend, has⟩, ⟨hends, hrest⟩, rfl⟩
      exact ⟨⟨hend, hends⟩, as, rest, has, hrest, rfl⟩
    · rintro ⟨⟨hend, hends⟩, as, rest, has, hrest, rfl⟩
      exact ⟨as, rest, ⟨hend, has⟩, ⟨hends, hrest⟩, rfl⟩

/-- Behind commands with an action in every slot the work goes on, unless one of them has no end. -/
lemma mapM_actions_of_forall_makes (h : ∀ c ∈ cs, c.Admitted)
    (hmade : ∀ o ∈ cs.flatMap slots, ∃ a, o.Makes table a) :
    (∀ c ∈ cs, ¬c.Endless) ∧ (∃ ass, cs.mapM (actions table) = .ok ass) ∨
      (¬∀ c ∈ cs, ¬c.Endless) ∧ ∃ s, cs.mapM (actions table) = .error (.endless s) := by
  cases hactions : cs.mapM (actions table) with
  | ok ass => exact Or.inl ⟨((mapM_actions_eq_ok_iff h).mp hactions).1, ass, rfl⟩
  | error e =>
    -- the command that is refused has an action in every slot, so that it can only be endless
    obtain ⟨before, c, after, rfl, -, hc⟩ := mapM_eq_error_iff.mp hactions
    have hmem : c ∈ before ++ c :: after := List.mem_append_right _ List.mem_cons_self
    have hslots : ∀ o ∈ c.slots, ∃ a, o.Makes table a := fun o ho => hmade o (List.mem_flatMap.mpr ⟨c, hmem, ho⟩)
    rcases actions_of_forall_makes (h c hmem) hslots with ⟨-, as, has⟩ | ⟨hend, s, hs⟩
    · rw [has] at hc
      cases hc
    · rw [hs] at hc
      cases hc
      exact Or.inr ⟨fun hends => hends c hmem hend, s, rfl⟩

end Actions

end Command

/-! ### Scripts -/

namespace Script

/-- The slots of a script, command by command. -/
def slots (script : Script) : List Slot := script.commands.flatMap Command.slots

/-- The first slot without an action, why it has none, and the commands before its own. -/
def FirstFails (table : EventTable Instant) (script : Script) (earlier : List Command) (o : Slot)
    (e : ResolutionError) : Prop :=
  ∃ c later before after, script.commands = earlier ++ c :: later ∧ c.slots = before ++ o :: after ∧
    (∀ p ∈ earlier.flatMap Command.slots ++ before, ∃ a, p.Makes table a) ∧ o.Fails table e

/-- The sweeps of a script went through the checks of their statements. -/
lemma admitted_of_compile {text : List Char} {script : Script} (h : compile text = .ok script) :
    ∀ c ∈ script.commands, c.Admitted := by
  intro c hc
  cases c with
  | leaf l => exact trivial
  | loop l body =>
    obtain ⟨line, hline⟩ := exists_read_of_compile h hc
    cases l with
    | sweep s => exact Sweep.admitted_of_read hline
    | cadence c => exact trivial

section Actions

variable {table : EventTable Instant} {script : Script}

lemma actions_eq_ok_iff (h : ∀ c ∈ script.commands, c.Admitted) {as : List (Action Instant)} :
    script.actions table = .ok as ↔
      (∀ c ∈ script.commands, ¬c.Endless) ∧ List.Forall₂ (Slot.Makes table) script.slots as := by
  have hslots : List.Forall₂ (Slot.Makes table) script.slots as ↔ script.slots.mapM (Slot.place table) = .ok as := by
    simp only [mapM_eq_ok_iff, Slot.place_eq_ok_iff]
  rw [hslots, slots, mapM_flatMap, actions, map_eq_ok, map_eq_ok]
  simp only [Command.mapM_actions_eq_ok_iff h, mapM_eq_ok_iff, and_assoc, exists_and_left]

lemma actions_eq_unresolved_iff (h : ∀ c ∈ script.commands, c.Admitted) {earlier : List Command} {o : Slot}
    {e : ResolutionError} (hfirst : script.FirstFails table earlier o e) :
    script.actions table = .error (.unresolved e) ↔ ∀ c ∈ earlier, ¬c.Endless := by
  obtain ⟨c, later, before, after, hcommands, hslots, hmade, hfails⟩ := hfirst
  rw [hcommands, List.forall_mem_append, List.forall_mem_cons] at h
  rw [List.forall_mem_append] at hmade
  have hc : c.actions table = .error (.unresolved e) := by
    rw [Command.actions_eq_unresolved_iff h.2.1, hslots, mapM_eq_error_iff]
    refine ⟨before, o, after, rfl, ?_, Slot.place_eq_error_iff.mpr hfails⟩
    simpa only [Slot.place_eq_ok_iff] using hmade.2
  rw [actions, map_eq_error, hcommands, List.mapM_append]
  rcases Command.mapM_actions_of_forall_makes h.1 hmade.1 with ⟨hends, ass, hass⟩ | ⟨hends, s, hs⟩
  · rw [hass, List.mapM_cons, hc]
    exact iff_of_true rfl hends
  · rw [hs]
    exact iff_of_false (by rintro ⟨⟩) hends

lemma forall_makes_or_exists_firstFails (table : EventTable Instant) (script : Script) :
    (∀ o ∈ script.slots, ∃ a, o.Makes table a) ∨ ∃ earlier o e, script.FirstFails table earlier o e := by
  simp only [← Slot.place_eq_ok_iff]
  cases hplace : script.slots.mapM (Slot.place table) with
  | ok as => exact Or.inl (exists_mapM_eq_ok_iff.mp ⟨as, hplace⟩)
  | error e =>
    rw [slots, mapM_flatMap, map_eq_error, mapM_eq_error_iff] at hplace
    obtain ⟨earlier, c, later, hcommands, hearlier, hc⟩ := hplace
    obtain ⟨before, o, after, hslots, hbefore, ho⟩ := mapM_eq_error_iff.mp hc
    refine Or.inr ⟨earlier, o, e, c, later, before, after, hcommands, hslots, ?_, Slot.place_eq_error_iff.mp ho⟩
    simp only [List.forall_mem_append, List.forall_mem_flatMap, ← Slot.place_eq_ok_iff]
    exact ⟨fun c' hc' => exists_mapM_eq_ok_iff.mp (hearlier c' hc'), hbefore⟩

end Actions

/-- The actions of a script that compiles are those in its slots, one for each and in their order: there are some if and
only if every slot has one and no sweep stays below its end for ever. If a slot has none, the error of the first such
slot is reported, unless a sweep before it has no end or its event is interpolated to an instant out of the calendar.
The values of a sweep are those below its end, and a cadence shifts by whole centiseconds, at first by none. -/
theorem actions_iff_slots {text : List Char} {script : Script} (h : compile text = .ok script)
    (table : EventTable Instant) :
    (∀ as, script.actions table = .ok as ↔
      (∀ c ∈ script.commands, ¬c.Endless) ∧ List.Forall₂ (Slot.Makes table) script.slots as) ∧
    ((∀ o ∈ script.slots, ∃ a, o.Makes table a) ∨ ∃ earlier o e, script.FirstFails table earlier o e) ∧
    (∀ earlier o e, script.FirstFails table earlier o e →
      (script.actions table = .error (.unresolved e) ∧ (∀ name, e ≠ .overflow name) ↔
        (∀ c ∈ earlier, ¬c.Endless) ∧ ¬o.Overshoots table)) ∧
    (∀ s body, .loop (.sweep s) body ∈ script.commands →
      (s.Stalls ↔ ∀ k, (s.value k).lt s.stop) ∧
      (¬s.Stalls → (∀ k < s.passes, (s.value k).lt s.stop) ∧ ¬(s.value s.passes).lt s.stop)) ∧
    ∀ c : Cadence, c.shift 0 = some .zero ∧ ∀ k d, c.shift k = some d → 10000000 ∣ d.nanos := by
  have hadmitted := admitted_of_compile h
  refine ⟨fun as => actions_eq_ok_iff hadmitted, forall_makes_or_exists_firstFails table script, ?_, ?_, ?_⟩
  · intro earlier o e hfirst
    have hover : (∀ name, e ≠ .overflow name) ↔ ¬o.Overshoots table := by
      obtain ⟨-, -, -, -, -, -, -, hfails⟩ := hfirst
      rw [Slot.overshoots_iff_of_fails hfails, not_exists]
    rw [actions_eq_unresolved_iff hadmitted hfirst, hover]
  · intro s body hs
    have hs : s.Admitted := hadmitted _ hs
    exact ⟨(Sweep.forall_value_lt_stop_iff hs).symm, fun hstalls => (Sweep.values_of_not_stalls hs hstalls).2⟩
  · exact fun c => ⟨c.shift_zero, fun k d hd => Cadence.dvd_of_shift hd⟩

/-- A leaf, a sweep with two passes, and a cadence that goes back by one and a half seconds. -/
def prelude : Script where
  commands := [
    .leaf ⟨"C2", .ofMicros (-10000000), .play "a.mp3", "now"⟩,
    .loop (.sweep ⟨.zero false, .ofInt 50, .ofInt 100⟩) [⟨"MAGPRE", .zero, .play "b.mp3", "part"⟩],
    .loop (.cadence ⟨.backward, .ofUnits false (3 * Binary64.scale) 2, 2⟩) [⟨"C2", .zero, .play "c.mp3", "beat"⟩]]

/-- So many nanoseconds after the start of 1970. -/
def moment (nanos : Int) : Instant := (Instant.ofNanos? nanos).getD default

/-- The first two contacts, one minute apart. -/
def minute : EventTable Instant := .ofInstants [("C1", moment 0), ("C2", moment 60000000000)]

def preludeActions : List (Action Instant) := [
  ⟨moment 50000000000, .play "a.mp3", "now"⟩,
  ⟨moment 0, .play "b.mp3", "part (Mag. 00.0%)"⟩,
  ⟨moment 30000000000, .play "b.mp3", "part (Mag. 50.0%)"⟩,
  ⟨moment 60000000000, .play "c.mp3", "beat (iter. 001)"⟩,
  ⟨moment 58500000000, .play "c.mp3", "beat (iter. 002)"⟩]

lemma compile_prelude : compile
    "PLAY,C2,-,00:10,a.mp3,,,,,,,,now\nFOR,(VAR),0,50,100\nPLAY,MAGPRE,+,00:00,b.mp3,,,,,,,,part\nENDFOR\nFOR,(INTERVALOMETER),0,1.5,2\nPLAY,C2,+,00:00,c.mp3,,,,,,,,beat".toList =
      .ok prelude := by
  decide +kernel

theorem prelude_actions :
    prelude.actions minute = .ok preludeActions ∧
      List.Forall₂ (Slot.Makes minute) prelude.slots preludeActions := by
  have hactions : prelude.actions minute = .ok preludeActions := by decide +kernel
  exact ⟨hactions, (((actions_iff_slots compile_prelude minute).1 preludeActions).mp hactions).2⟩

/-- Two readings more than two hundred and eighty-five years apart, the later one in the last microsecond of the
calendar. -/
def verge : EventTable Instant :=
  (EventTable.ofReadings []
    [⟨.ofUnits false Binary64.scale 18014398509481984, moment 8201020694400000000000⟩,
      ⟨.ofUnits false (6755399441055745 * Binary64.scale) 9007199254740992, moment 8210266876799999999000⟩]
    [] none).toOption.getD default

def plunge : Script := ⟨[.leaf ⟨"MAGPRE 75", .zero, .play "a.mp3", "c"⟩]⟩

lemma compile_plunge : compile "PLAY,MAGPRE 75,+,00:00,a.mp3,,,,,,,,c".toList = .ok plunge := by decide +kernel

/-- A magnitude between two readings is placed beyond both, out of the calendar, and nothing is reported. -/
theorem plunge_overshoots :
    compile "PLAY,MAGPRE 75,+,00:00,a.mp3,,,,,,,,c".toList = .ok plunge ∧
      (∃ o, plunge.FirstFails verge [] o (.overflow "MAGPRE 75") ∧ o.Overshoots verge) ∧
      ¬∃ e, plunge.actions verge = .error (.unresolved e) ∧ ∀ name, e ≠ .overflow name := by
  have hactions : plunge.actions verge = .error (.unresolved (.overflow "MAGPRE 75")) := by decide +kernel
  have hresolve : verge.resolve "MAGPRE 75" = .error (.overflow "MAGPRE 75") := by decide +kernel
  have hfails : (Slot.ofLeaf ⟨"MAGPRE 75", .zero, .play "a.mp3", "c"⟩).Fails verge (.overflow "MAGPRE 75") :=
    .event rfl hresolve
  refine ⟨compile_plunge, ⟨_, ⟨_, [], [], [], rfl, rfl, List.forall_mem_nil _, hfails⟩, ?_⟩, ?_⟩
  · exact (Slot.overshoots_iff_of_fails hfails).mpr ⟨_, rfl⟩
  · rintro ⟨e, he, hreported⟩
    rw [hactions] at he
    cases he
    exact hreported _ rfl

end Script

end Totality
