import EnergyMeter.Proofs.Operations
import EnergyMeter.Sampling.SlotSchedule

/-!
# The history of an interrupt slot

A slot is filled again and again while its queues live on. Whatever was installed and however the
slot is reached, a tick does what an interrupt of the intake installed last does, and nothing at
all before there is one. Through all installs each channel receives, in order, exactly the pairs
that its queue had room for; the pairs lost since the last install are on the count of its intake.
-/
namespace EnergyMeter

namespace SlotAccess

/-- A slot does the same among the globals of a meter as with queues of its caller. -/
theorem byCall_eq_asGlobals : byCall = asGlobals := by
  have htick : byCall.tick = asGlobals.tick := by
    funext globals
    obtain ⟨⟨intake⟩, queues⟩ := globals
    cases intake <;> rfl
  have hsetUp : byCall.setUp = asGlobals.setUp := rfl
  calc byCall = ⟨byCall.setUp, byCall.tick⟩ := rfl
    _ = ⟨asGlobals.setUp, asGlobals.tick⟩ := by rw [htick, hsetUp]

variable (access : SlotAccess) (globals : MeterGlobals)

/-- The globals after a list of steps. -/
def after (steps : List SlotStep) : MeterGlobals := (access.run globals steps).2

@[simp] theorem run_cons (first : SlotStep) (rest : List SlotStep) :
    access.run globals (first :: rest) =
      ((access.step globals first).1 :: (access.run (access.step globals first).2 rest).1,
        access.after (access.step globals first).2 rest) := rfl

@[simp] theorem run_append (steps more : List SlotStep) :
    access.run globals (steps ++ more) =
      ((access.run globals steps).1 ++ (access.run (access.after globals steps) more).1,
        access.after (access.after globals steps) more) := by
  induction steps generalizing globals with
  | nil => rfl
  | cons first rest ih =>
    rw [List.cons_append, run_cons, after, ih]
    rfl

@[simp] theorem after_append (steps more : List SlotStep) :
    access.after globals (steps ++ more) = access.after (access.after globals steps) more := by
  rw [after, run_append]

end SlotAccess

open SlotAccess (asGlobals)

theorem step_installed (bare : BareIntake) (s : SlotStep) :
    asGlobals.step bare.installed s = ((bare.step s).1, (bare.step s).2.installed) := by
  cases s <;> rfl

/-- The globals of a meter with a filled slot run like the intake in the slot. -/
theorem run_installed (bare : BareIntake) (steps : List SlotStep) :
    asGlobals.run bare.installed steps = ((bare.run steps).1, (bare.run steps).2.installed) := by
  induction steps generalizing bare with
  | nil => rfl
  | cons first rest ih =>
    rw [SlotAccess.run_cons, step_installed, SlotAccess.after, ih]
    rfl

def SlotStep.isSetUp : SlotStep → Bool
  | setUp _ => true
  | _ => false

theorem intake_step_empty {globals : MeterGlobals} (h : globals.slot.intake = none) {s : SlotStep}
    (hs : s.isSetUp = false) : (asGlobals.step globals s).2.slot.intake = none := by
  obtain ⟨⟨intake⟩, queues⟩ := globals
  obtain rfl : intake = none := h
  cases s with
  | setUp converter => cases hs
  | appendScript | tick | receive => rfl

/-- Only an install fills the slot. -/
theorem intake_after_empty {globals : MeterGlobals} (h : globals.slot.intake = none)
    {steps : List SlotStep} (hs : ∀ s ∈ steps, s.isSetUp = false) :
    (asGlobals.after globals steps).slot.intake = none := by
  induction steps generalizing globals with
  | nil => exact h
  | cons first rest ih =>
    have hfirst := intake_step_empty h (hs first List.mem_cons_self)
    exact ih hfirst fun s hm => hs s (List.mem_cons_of_mem first hm)

theorem tick_empty {globals : MeterGlobals} (h : globals.slot.intake = none) :
    asGlobals.tick globals = { value := (none, globals) } := by
  obtain ⟨⟨intake⟩, queues⟩ := globals
  obtain rfl : intake = none := h
  rfl

/-- What an interrupt posts: its pair, to each channel that has room, and nothing to the cycle
meter. What has no room is on the count of overruns. -/
structure Posted (before : BareIntake) (read : List Sample) (after : BareIntake) : Prop where
  samples : ∀ input : AnalogInput, (after.queues.get input.consumer).samples =
    (before.queues.get input.consumer).samples ++
      if (before.queues.get input.consumer).HasRoom then read else []
  cycle : after.queues.cycle = before.queues.cycle
  overruns : after.intake.overruns.toNat = min (before.intake.overruns.toNat +
    (if before.queues.voltage.HasRoom then [] else read).length +
    (if before.queues.current.HasRoom then [] else read).length) (2 ^ 32 - 1)

theorem posted_interrupt (bare : BareIntake) :
    let done := (bare.intake.interrupt bare.queues).value
    Posted bare done.result.toOption.toList ⟨done.intake, done.queues⟩ := by
  intro done
  have hb := bare.intake.overruns.toNat_lt
  obtain ⟨sample, read, ho, hr, hp⟩ | ⟨fault, hr, ho, hq⟩ :=
    bare.intake.interrupt_value bare.queues
  · obtain ⟨hq, hn⟩ := read.post_value bare.queues sample
    rw [← hp] at hq hn
    replace hq : done.queues = _ := hq
    have hread : done.result.toOption.toList = [sample] := by rw [hr]; rfl
    rw [hread]
    constructor
    · intro input
      cases input with
      | voltage =>
        show (done.queues.voltage).samples = _
        rw [hq]
        exact SampleQueue.samples_afterOffer _ _
      | current =>
        show (done.queues.current).samples = _
        rw [hq]
        exact SampleQueue.samples_afterOffer _ _
    · show done.queues.cycle = _
      rw [hq]
    · show done.intake.overruns.toNat = _
      rw [hn, ho]
      unfold SampleQueue.loss
      split <;> split <;> rfl
  · have hread : done.result.toOption.toList = [] := by rw [hr]; rfl
    rw [hread]
    constructor
    · intro input
      show (done.queues.get input.consumer).samples = _
      rw [hq, ite_self, List.append_nil]
    · show done.queues.cycle = _
      rw [hq]
    · show done.intake.overruns.toNat = _
      rw [ho, ite_self, ite_self, List.length_nil]
      omega

/-- A step of a run, with the globals that it found. -/
structure SlotVisit where
  globals : MeterGlobals
  step : SlotStep

/-- The pair that a tick returned. -/
def SlotAnswer.read : SlotAnswer → List Sample
  | ticked (some result) => result.toOption.toList
  | _ => []

namespace SlotVisit

def answer (visit : SlotVisit) : SlotAnswer := (asGlobals.step visit.globals visit.step).1.value

def after (visit : SlotVisit) : MeterGlobals := (asGlobals.step visit.globals visit.step).2

/-- The queue of an input as the step found it. -/
def queue (input : AnalogInput) (visit : SlotVisit) : SampleQueue :=
  visit.globals.queues.get input.consumer

def read (visit : SlotVisit) : List Sample := visit.answer.read

/-- The pair of a tick that found the queue of an input with room. -/
def taken (input : AnalogInput) (visit : SlotVisit) : List Sample :=
  if (visit.queue input).HasRoom then visit.read else []

/-- The pair of a tick that found the queue of an input full. -/
def lost (input : AnalogInput) (visit : SlotVisit) : List Sample :=
  if (visit.queue input).HasRoom then [] else visit.read

/-- The pair that was received from the queue of an input. -/
def received (input : AnalogInput) (visit : SlotVisit) : List Sample :=
  match visit.step, visit.answer with
  | .receive consumer, .received sample =>
    if consumer = input.consumer then sample.toList else []
  | _, _ => []

theorem taken_of_no_read {visit : SlotVisit} (h : visit.read = []) (input : AnalogInput) :
    visit.taken input = [] := by
  rw [taken, h, ite_self]

theorem lost_of_no_read {visit : SlotVisit} (h : visit.read = []) (input : AnalogInput) :
    visit.lost input = [] := by
  rw [lost, h, ite_self]

theorem length_read (input : AnalogInput) (visit : SlotVisit) :
    visit.read.length = (visit.taken input).length + (visit.lost input).length := by
  unfold taken lost
  split <;> simp

end SlotVisit

/-- The steps of a run, each with the globals that it found. -/
def slotVisits (globals : MeterGlobals) : List SlotStep → List SlotVisit
  | [] => []
  | first :: rest => ⟨globals, first⟩ :: slotVisits (asGlobals.step globals first).2 rest

@[simp] theorem slotVisits_append (globals : MeterGlobals) (steps more : List SlotStep) :
    slotVisits globals (steps ++ more) =
      slotVisits globals steps ++ slotVisits (asGlobals.after globals steps) more := by
  induction steps generalizing globals with
  | nil => rfl
  | cons first rest ih =>
    rw [List.cons_append, slotVisits, ih]
    rfl

/-- A step takes out of a queue what it received, and puts in what it took. -/
theorem received_append_samples (input : AnalogInput) (visit : SlotVisit) :
    visit.received input ++ (visit.after.queues.get input.consumer).samples =
      (visit.queue input).samples ++ visit.taken input := by
  obtain ⟨⟨⟨intake⟩, queues⟩, step⟩ := visit
  cases step with
  | setUp | appendScript =>
    rw [SlotVisit.taken_of_no_read rfl, List.append_nil]
    rfl
  | tick =>
    cases intake with
    | none =>
      rw [SlotVisit.taken_of_no_read rfl, List.append_nil]
      rfl
    | some intake => exact (posted_interrupt ⟨intake, queues⟩).samples input
  | receive consumer =>
    rw [SlotVisit.taken_of_no_read rfl, List.append_nil]
    show (if consumer = input.consumer then (queues.take consumer).1.toList else []) ++
      ((queues.take consumer).2.get input.consumer).samples = (queues.get input.consumer).samples
    unfold SampleQueues.take
    cases hr : queues.receive? consumer with
    | none =>
      simp
    | some got =>
      obtain ⟨sample, rest⟩ := got
      obtain ⟨hown, hother⟩ := SampleQueues.receive?_eq_some hr
      by_cases hc : consumer = input.consumer
      · subst hc
        simp [hown]
      · simp [hc, hother input.consumer (Ne.symm hc)]

/-- What was received from a queue and what waits in it is what it held and what it took. -/
theorem received_append_samples_run (input : AnalogInput) (globals : MeterGlobals)
    (steps : List SlotStep) :
    (slotVisits globals steps).flatMap (SlotVisit.received input) ++
        ((asGlobals.after globals steps).queues.get input.consumer).samples =
      (globals.queues.get input.consumer).samples ++
        (slotVisits globals steps).flatMap (SlotVisit.taken input) := by
  induction steps generalizing globals with
  | nil => exact (List.append_nil _).symm
  | cons first rest ih =>
    have hfirst := received_append_samples input ⟨globals, first⟩
    have hrest := ih (asGlobals.step globals first).2
    rw [slotVisits, List.flatMap_cons, List.flatMap_cons, List.append_assoc]
    show _ ++ (_ ++ ((asGlobals.after (asGlobals.step globals first).2 rest).queues.get
      input.consumer).samples) = _
    rw [hrest, ← List.append_assoc]
    show SlotVisit.received input ⟨globals, first⟩ ++
      ((SlotVisit.mk globals first).after.queues.get input.consumer).samples ++ _ = _
    rw [hfirst, List.append_assoc]
    rfl

/-- Only a tick loses pairs, and the intake in the slot counts them. -/
theorem overruns_step (bare : BareIntake) {s : SlotStep} (hs : s.isSetUp = false) :
    (bare.step s).2.intake.overruns.toNat = min (bare.intake.overruns.toNat +
      (SlotVisit.lost .voltage ⟨bare.installed, s⟩).length +
      (SlotVisit.lost .current ⟨bare.installed, s⟩).length) (2 ^ 32 - 1) := by
  have hb := bare.intake.overruns.toNat_lt
  cases s with
  | setUp converter => cases hs
  | tick => exact (posted_interrupt bare).overruns
  | appendScript script =>
    show bare.intake.overruns.toNat = _
    rw [SlotVisit.lost_of_no_read rfl, SlotVisit.lost_of_no_read rfl, List.length_nil]
    omega
  | receive consumer =>
    show bare.intake.overruns.toNat = _
    rw [SlotVisit.lost_of_no_read rfl, SlotVisit.lost_of_no_read rfl, List.length_nil]
    omega

theorem overruns_run (bare : BareIntake) {steps : List SlotStep}
    (hs : ∀ s ∈ steps, s.isSetUp = false) :
    (bare.run steps).2.intake.overruns.toNat = min (bare.intake.overruns.toNat +
      ((slotVisits bare.installed steps).flatMap (SlotVisit.lost .voltage)).length +
      ((slotVisits bare.installed steps).flatMap (SlotVisit.lost .current)).length)
        (2 ^ 32 - 1) := by
  induction steps generalizing bare with
  | nil =>
    have hb := bare.intake.overruns.toNat_lt
    show bare.intake.overruns.toNat = min (bare.intake.overruns.toNat + 0 + 0) _
    omega
  | cons first rest ih =>
    have hfirst := overruns_step bare (hs first List.mem_cons_self)
    have hrest := ih (bare.step first).2 fun s hm => hs s (List.mem_cons_of_mem first hm)
    have hvisits : slotVisits bare.installed (first :: rest) =
        ⟨bare.installed, first⟩ :: slotVisits (bare.step first).2.installed rest := by
      rw [slotVisits, step_installed]
    rw [hvisits, List.flatMap_cons, List.flatMap_cons, List.length_append, List.length_append]
    show ((bare.step first).2.run rest).2.intake.overruns.toNat = _
    rw [hrest, hfirst]
    omega

theorem map_step_slotVisits (globals : MeterGlobals) (steps : List SlotStep) :
    (slotVisits globals steps).map SlotVisit.step = steps := by
  induction steps generalizing globals with
  | nil => rfl
  | cons first rest ih => rw [slotVisits, List.map_cons, ih]

/-- The answers of the visits are those that the run gave. -/
theorem map_answer_slotVisits (globals : MeterGlobals) (steps : List SlotStep) :
    (slotVisits globals steps).map SlotVisit.answer =
      (asGlobals.run globals steps).1.map (·.value) := by
  induction steps generalizing globals with
  | nil => rfl
  | cons first rest ih =>
    rw [slotVisits, List.map_cons, ih, SlotAccess.run_cons]
    rfl

theorem length_flatMap_read (input : AnalogInput) (visits : List SlotVisit) :
    (visits.flatMap SlotVisit.read).length =
      (visits.flatMap (SlotVisit.taken input)).length +
        (visits.flatMap (SlotVisit.lost input)).length := by
  induction visits with
  | nil => rfl
  | cons first rest ih =>
    have hfirst := first.length_read input
    simp only [List.flatMap_cons, List.length_append]
    omega

theorem cycle_tick (globals : MeterGlobals) :
    (asGlobals.step globals .tick).2.queues.cycle = globals.queues.cycle := by
  obtain ⟨⟨intake⟩, queues⟩ := globals
  cases intake with
  | none => rfl
  | some intake => exact (posted_interrupt ⟨intake, queues⟩).cycle

/-- The globals after what a program did since power-on. -/
def globalsAfter (steps : List SlotStep) : MeterGlobals := asGlobals.after {} steps

/-- The visits of what a program did since power-on. -/
def visitsOf (steps : List SlotStep) : List SlotVisit := slotVisits {} steps

@[simp] theorem globalsAfter_append (steps more : List SlotStep) :
    globalsAfter (steps ++ more) = asGlobals.after (globalsAfter steps) more :=
  asGlobals.after_append {} steps more

/-- From an install on, the globals are those of the intake that was installed. -/
theorem run_install (steps : List SlotStep) (converter : Converter) (later : List SlotStep) :
    let bare : BareIntake := ⟨.onto converter, (globalsAfter steps).queues⟩
    asGlobals.run {} (steps ++ .setUp converter :: later) =
      ((asGlobals.run {} steps).1 ++ { value := .done } :: (bare.run later).1,
        (bare.run later).2.installed) := by
  intro bare
  have hset : asGlobals.step (globalsAfter steps) (.setUp converter) =
      ({ value := .done }, bare.installed) := rfl
  have hfrom : asGlobals.run (globalsAfter steps) (.setUp converter :: later) =
      ({ value := .done } :: (bare.run later).1, (bare.run later).2.installed) := by
    rw [SlotAccess.run_cons, hset, SlotAccess.after, run_installed]
  rw [asGlobals.run_append]
  show (_ ++ (asGlobals.run (globalsAfter steps) (.setUp converter :: later)).1,
    (asGlobals.run (globalsAfter steps) (.setUp converter :: later)).2) = _
  rw [hfrom]

/-- What was received from a channel's queue since power-on and what waits in it is what it took. -/
theorem received_append_samples_start (input : AnalogInput) (steps : List SlotStep) :
    (visitsOf steps).flatMap (SlotVisit.received input) ++
        ((globalsAfter steps).queues.get input.consumer).samples =
      (visitsOf steps).flatMap (SlotVisit.taken input) := by
  have hnone : (({} : MeterGlobals).queues.get input.consumer).samples = [] := by
    cases input <;> rfl
  have hrun := received_append_samples_run input {} steps
  rw [hnone] at hrun
  exact hrun

/-- The visits since an install end a run, and what they lost is on the count of the intake. -/
theorem overruns_install (before : List SlotStep) (converter : Converter) {later : List SlotStep}
    (hs : ∀ s ∈ later, s.isSetUp = false) :
    let steps := before ++ .setUp converter :: later
    let since := slotVisits (globalsAfter (before ++ [.setUp converter])) later
    visitsOf steps = visitsOf (before ++ [.setUp converter]) ++ since ∧
      ∃ count, (globalsAfter steps).slot.overruns? = some count ∧
        count.toNat = min ((since.flatMap (SlotVisit.lost .voltage)).length +
          (since.flatMap (SlotVisit.lost .current)).length) (2 ^ 32 - 1) := by
  intro steps since
  have hvisits : visitsOf steps = visitsOf (before ++ [.setUp converter]) ++ since := by
    show visitsOf (before ++ .setUp converter :: later) = _
    rw [List.append_cons]
    exact slotVisits_append {} _ later
  have hrun := congrArg Prod.snd (run_install before converter later)
  have hstart : globalsAfter (before ++ [.setUp converter]) =
      (BareIntake.mk (.onto converter) (globalsAfter before).queues).installed :=
    globalsAfter_append before [.setUp converter]
  have hcount := overruns_run ⟨.onto converter, (globalsAfter before).queues⟩ hs
  have hzero : (Intake.onto converter).overruns.toNat = 0 := rfl
  rw [← hstart, hzero, Nat.zero_add] at hcount
  exact ⟨hvisits, _, congrArg (fun globals : MeterGlobals => globals.slot.overruns?) hrun, hcount⟩

/-- The account of what a program did with a slot since power-on. Both ways to reach the slot
give the same answers; a tick is that of the intake installed last, or of none; an install keeps
what waits and counts anew; and for each channel the pairs received, waiting and lost are those
that were read, in order. -/
structure SlotAccount (steps : List SlotStep) : Prop where
  alike : SlotAccess.byCall.run {} steps = asGlobals.run {} steps
  silent : (∀ s ∈ steps, s.isSetUp = false) →
    asGlobals.step (globalsAfter steps) .tick = ({ value := .ticked none }, globalsAfter steps)
  refines : ∀ before converter later, steps = before ++ .setUp converter :: later →
    let bare : BareIntake := ⟨.onto converter, (globalsAfter before).queues⟩
    asGlobals.run {} steps =
      ((asGlobals.run {} before).1 ++ { value := .done } :: (bare.run later).1,
        (bare.run later).2.installed)
  install : ∀ converter,
    (globalsAfter (steps ++ [.setUp converter])).queues = (globalsAfter steps).queues ∧
      (globalsAfter (steps ++ [.setUp converter])).slot.overruns? = some 0
  cycle : (globalsAfter (steps ++ [.tick])).queues.cycle = (globalsAfter steps).queues.cycle
  answered : (visitsOf steps).map (·.step) = steps ∧
    (visitsOf steps).map (·.answer) = (asGlobals.run {} steps).1.map (·.value)
  in_order : ∀ input : AnalogInput, (visitsOf steps).flatMap (SlotVisit.received input) ++
    ((globalsAfter steps).queues.get input.consumer).samples =
      (visitsOf steps).flatMap (SlotVisit.taken input)
  count : ∀ input : AnalogInput, ((visitsOf steps).flatMap SlotVisit.read).length =
    ((visitsOf steps).flatMap (SlotVisit.received input)).length +
      ((globalsAfter steps).queues.get input.consumer).length +
      ((visitsOf steps).flatMap (SlotVisit.lost input)).length
  overruns : ∀ before converter later, steps = before ++ .setUp converter :: later →
    (∀ s ∈ later, s.isSetUp = false) →
    let since := slotVisits (globalsAfter (before ++ [.setUp converter])) later
    visitsOf steps = visitsOf (before ++ [.setUp converter]) ++ since ∧
      ∃ count, (globalsAfter steps).slot.overruns? = some count ∧
        count.toNat = min ((since.flatMap (SlotVisit.lost .voltage)).length +
          (since.flatMap (SlotVisit.lost .current)).length) (2 ^ 32 - 1)

/-- The account holds of whatever a program does with a slot. -/
theorem slot_accounted (steps : List SlotStep) : SlotAccount steps := by
  constructor
  · rw [SlotAccess.byCall_eq_asGlobals]
  · intro hs
    have hempty : (globalsAfter steps).slot.intake = none := intake_after_empty rfl hs
    rw [SlotAccess.step, tick_empty hempty]
  · rintro before converter later rfl
    exact run_install before converter later
  · intro converter
    rw [globalsAfter_append]
    exact ⟨rfl, rfl⟩
  · rw [globalsAfter_append]
    exact cycle_tick _
  · exact ⟨map_step_slotVisits {} steps, map_answer_slotVisits {} steps⟩
  · exact fun input => received_append_samples_start input steps
  · intro input
    have hlength := congrArg List.length (received_append_samples_start input steps)
    rw [List.length_append] at hlength
    rw [length_flatMap_read input, ← hlength]
    rfl
  · rintro before converter later rfl hs
    exact overruns_install before converter hs

/-- An install keeps the pairs that wait, and the losses of the intake before it are forgotten. -/
example : (globalsAfter [.tick, .setUp {}, .tick, .tick, .tick, .tick, .tick, .receive .current,
    .setUp {}, .tick]).slot.overruns? = some 1 := by decide +kernel

end EnergyMeter
