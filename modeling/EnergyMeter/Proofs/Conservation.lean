import EnergyMeter.Proofs.Construction
import EnergyMeter.Proofs.Operations

/-!
# No sample is lost in silence

While a meter is in service, samples reach a queue only from the meter itself: an interrupt
offers its pair to both channels, and the current consumer offers what it handled to the cycle
meter. For each of the three queues, what its consumer handled followed by what still waits is
exactly what the queue had room for, in the order of the offers, and what it had no room for
is counted. Nothing is assumed of the order of interrupts and servings, of the script of the
converter, or of how often the intake is replaced.
-/
namespace EnergyMeter

namespace Event

/-- The meter just before an event. -/
def before : Event → Pipeline
  | interrupted meter => meter
  | restarted meter => meter
  | handled meter _ _ => meter

def after : Event → Pipeline
  | interrupted meter => meter.interrupt.2
  | restarted meter => meter.restart
  | handled meter consumer sample => (meter.handle consumer sample).2

/-- The pair that an interrupt returned. -/
def read : Event → List Sample
  | interrupted meter => meter.interrupt.1.toOption.toList
  | _ => []

/-- What an event offers to the queue of a consumer, with the queue as it was found. -/
def offered : Consumer → Event → List (Sample × SampleQueue)
  | .voltage, interrupted meter =>
    meter.interrupt.1.toOption.toList.map fun sample => (sample, meter.queues.voltage)
  | .current, interrupted meter =>
    meter.interrupt.1.toOption.toList.map fun sample => (sample, meter.queues.current)
  | .cycle, handled meter .current sample => [(sample, meter.queues.cycle)]
  | _, _ => []

def handledBy (consumer : Consumer) : Event → List Sample
  | handled _ server sample => if server = consumer then [sample] else []
  | _ => []

/-- The overruns of an intake that was replaced. -/
def retired : Event → List UInt32
  | restarted meter => [meter.intake.overruns]
  | _ => []

end Event

/-- A relation that does not read the queues is kept by every step if settings keep it and every
event does. -/
theorem kept_of_events {Inv : List Event → Pipeline → Prop}
    (hsetting : ∀ s, s.isSetting = true → ∀ es p, Inv es p → Inv es (p.step s).2)
    (hqueues : ∀ es (p : Pipeline) queues, Inv es p → Inv es { p with queues })
    (hevent : ∀ es (e : Event), Inv es e.before → Inv (es ++ [e]) e.after) :
    Kept (fun _ => True) Inv where
  setting s hs _ es p h := hsetting s hs es p h
  interrupt es p h := hevent es (.interrupted p) h
  restart _ es p h := hevent es (.restarted p) h
  serve consumer es p sample queues _ h :=
    hevent es (.handled { p with queues } consumer sample) (hqueues es p queues h)
  hand consumer sample _ es p h := hevent es (.handled p consumer sample) h
  send _ _ _ es p queues _ h := hqueues es p queues h
  receive _ _ es p _ queues _ h := hqueues es p queues h

def samplesRead (es : List Event) : List Sample := es.flatMap Event.read

def samplesHandled (consumer : Consumer) (es : List Event) : List Sample :=
  es.flatMap (Event.handledBy consumer)

def offersTo (consumer : Consumer) (es : List Event) : List (Sample × SampleQueue) :=
  es.flatMap (Event.offered consumer)

/-- The offered samples that found the queue with room. -/
def takenBy (consumer : Consumer) (es : List Event) : List Sample :=
  ((offersTo consumer es).filter fun offer => offer.2.HasRoom).map Prod.fst

/-- The offered samples that found the queue full. -/
def lostBy (consumer : Consumer) (es : List Event) : List Sample :=
  ((offersTo consumer es).filter fun offer => ¬ offer.2.HasRoom).map Prod.fst

/-- The overruns of every intake of a run; the last of them is still in place. -/
def overrunCounts (es : List Event) (p : Pipeline) : List UInt32 :=
  es.flatMap Event.retired ++ [p.intake.overruns]

/-- No sample is handed to a consumer past its queue, and none enters or leaves a queue from
outside. -/
def Step.inService : Step → Bool
  | .hand .. | .send .. | .receive _ => false
  | _ => true

@[simp] theorem samplesHandled_snoc (consumer : Consumer) (es : List Event) (e : Event) :
    samplesHandled consumer (es ++ [e]) = samplesHandled consumer es ++ e.handledBy consumer := by
  rw [samplesHandled, List.flatMap_append, List.flatMap_singleton]
  rfl

@[simp] theorem takenBy_append (consumer : Consumer) (es fs : List Event) :
    takenBy consumer (es ++ fs) = takenBy consumer es ++ takenBy consumer fs := by
  simp only [takenBy, offersTo, List.flatMap_append, List.filter_append, List.map_append]

@[simp] theorem lostBy_append (consumer : Consumer) (es fs : List Event) :
    lostBy consumer (es ++ fs) = lostBy consumer es ++ lostBy consumer fs := by
  simp only [lostBy, offersTo, List.flatMap_append, List.filter_append, List.map_append]

@[simp] theorem takenBy_singleton (consumer : Consumer) (e : Event) :
    takenBy consumer [e] =
      ((e.offered consumer).filter fun offer => offer.2.HasRoom).map Prod.fst := by
  rw [takenBy, offersTo, List.flatMap_singleton]

@[simp] theorem lostBy_singleton (consumer : Consumer) (e : Event) :
    lostBy consumer [e] =
      ((e.offered consumer).filter fun offer => ¬ offer.2.HasRoom).map Prod.fst := by
  rw [lostBy, offersTo, List.flatMap_singleton]

theorem lostBy_no_offer {consumer : Consumer} {e : Event} (h : e.offered consumer = [])
    (es : List Event) : lostBy consumer (es ++ [e]) = lostBy consumer es := by
  simp [h]

/-- An offer is taken or lost. -/
theorem length_offersTo (consumer : Consumer) (es : List Event) :
    (offersTo consumer es).length = (takenBy consumer es).length + (lostBy consumer es).length := by
  have h := List.length_eq_length_filter_add (l := offersTo consumer es)
    fun offer => decide offer.2.HasRoom
  simpa only [takenBy, lostBy, List.length_map, decide_not] using h

/-- Both channels are offered every pair that was read, and the cycle meter every sample that
the current consumer handled. -/
theorem map_fst_offersTo (es : List Event) :
    (offersTo .voltage es).map Prod.fst = samplesRead es ∧
      (offersTo .current es).map Prod.fst = samplesRead es ∧
      (offersTo .cycle es).map Prod.fst = samplesHandled .current es := by
  simp only [offersTo, samplesRead, samplesHandled, List.map_flatMap]
  refine ⟨?_, ?_, ?_⟩
  · congr 1
    funext e
    cases e <;> simp [Event.offered, Event.read, Function.comp_def]
  · congr 1
    funext e
    cases e <;> simp [Event.offered, Event.read, Function.comp_def]
  · congr 1
    funext e
    cases e with
    | interrupted meter => rfl
    | restarted meter => rfl
    | handled meter server sample => cases server <;> rfl

/-- An event offers a queue one sample at most, and what it finds is that queue. -/
theorem offered_eq (consumer : Consumer) (e : Event) : ∃ sample : Option Sample,
    e.offered consumer = sample.toList.map fun s => (s, e.before.queues.get consumer) := by
  cases e with
  | interrupted meter =>
    cases consumer with
    | voltage => exact ⟨meter.interrupt.1.toOption, rfl⟩
    | current => exact ⟨meter.interrupt.1.toOption, rfl⟩
    | cycle => exact ⟨none, rfl⟩
  | restarted meter => exact ⟨none, by cases consumer <;> rfl⟩
  | handled meter server sample =>
    cases consumer with
    | voltage => exact ⟨none, rfl⟩
    | current => exact ⟨none, rfl⟩
    | cycle =>
      cases server with
      | voltage => exact ⟨none, rfl⟩
      | current => exact ⟨some sample, rfl⟩
      | cycle => exact ⟨none, rfl⟩

/-- An event adds to a queue exactly what the queue has room for. -/
theorem samples_after (e : Event) (consumer : Consumer) :
    (e.after.queues.get consumer).samples =
      (e.before.queues.get consumer).samples ++ takenBy consumer [e] := by
  cases e with
  | restarted meter =>
    cases consumer <;> simp [Event.after, Event.before, Pipeline.restart, Event.offered]
  | interrupted meter =>
    cases hr : meter.interrupt.1 with
    | error fault =>
      have hq := (Pipeline.interrupt_error hr).1
      cases consumer <;> simp [Event.after, Event.before, Event.offered, hr, hq, Except.toOption]
    | ok sample =>
      have hq := (Pipeline.interrupt_ok hr).1
      cases consumer <;> simp [Event.after, Event.before, Event.offered, hr, hq,
        Except.toOption, SampleQueues.get, List.filter_cons]
      · split <;> rfl
      · split <;> rfl
  | handled meter server sample =>
    cases server with
    | voltage =>
      cases consumer <;> simp [Event.after, Event.before, Event.offered, Pipeline.handle,
        Pipeline.handleVoltage]
    | cycle =>
      cases consumer <;> simp [Event.after, Event.before, Event.offered, Pipeline.handle,
        Pipeline.handleCycle]
    | current =>
      cases consumer <;> simp [Event.after, Event.before, Event.offered, Pipeline.handle,
        SampleQueues.get, List.filter_cons]
      split <;> rfl

theorem length_after_le {e : Event} {consumer : Consumer}
    (h : (e.before.queues.get consumer).length ≤ DesignPoint.queueDepth) :
    (e.after.queues.get consumer).length ≤ DesignPoint.queueDepth := by
  obtain ⟨sample, ho⟩ := offered_eq consumer e
  have ha := congrArg List.length (samples_after e consumer)
  rw [List.length_append] at ha
  unfold SampleQueue.length at h ⊢
  rw [ha, takenBy_singleton, ho]
  by_cases hr : (e.before.queues.get consumer).HasRoom
  · have hlt : (e.before.queues.get consumer).samples.length < DesignPoint.queueDepth := hr
    cases sample <;> simp [hr] <;> omega
  · cases sample <;> simp [hr, h]

/-- An interrupt that returns a pair loses it to the channels that have no room for it. -/
theorem length_lostBy_ok {meter : Pipeline} {sample : Sample}
    (h : meter.interrupt.1 = .ok sample) :
    (lostBy .voltage [.interrupted meter]).length = meter.queues.voltage.loss ∧
      (lostBy .current [.interrupted meter]).length = meter.queues.current.loss := by
  by_cases hv : meter.queues.voltage.HasRoom <;> by_cases hc : meter.queues.current.HasRoom <;>
    simp [Event.offered, h, Except.toOption, SampleQueue.loss, hv, hc]

theorem lostBy_error {meter : Pipeline} {fault : Fault} (h : meter.interrupt.1 = .error fault)
    (consumer : Consumer) : lostBy consumer [.interrupted meter] = [] := by
  cases consumer <;> simp [Event.offered, h, Except.toOption]

theorem length_lostBy_handled (meter : Pipeline) (sample : Sample) :
    (lostBy .cycle [.handled meter .current sample]).length = meter.queues.cycle.loss := by
  by_cases hr : meter.queues.cycle.HasRoom <;>
    simp [Event.offered, SampleQueue.loss, hr]

/-- Only an interrupt loses pairs of the channels, and its intake counts each of them. -/
theorem overruns_interrupted (meter : Pipeline) :
    (meter.interrupt.2.intake.overruns).toNat = min (meter.intake.overruns.toNat +
      (lostBy .voltage [.interrupted meter]).length + (lostBy .current [.interrupted meter]).length)
        (2 ^ 32 - 1) := by
  have hb := meter.intake.overruns.toNat_lt
  cases hr : meter.interrupt.1 with
  | error fault =>
    rw [(Pipeline.interrupt_error hr).2, lostBy_error hr, lostBy_error hr]
    exact (Nat.min_eq_left (Nat.le_sub_one_of_lt hb)).symm
  | ok sample =>
    obtain ⟨hv, hc⟩ := length_lostBy_ok hr
    rw [(Pipeline.interrupt_ok hr).2, hv, hc]

/-- Only the current consumer loses samples of the cycle meter, and it counts each of them. -/
theorem overruns_handled (meter : Pipeline) (consumer : Consumer) (sample : Sample) :
    (meter.handle consumer sample).2.current.overruns.toNat = min
      (meter.current.overruns.toNat + (lostBy .cycle [.handled meter consumer sample]).length)
        (2 ^ 32 - 1) := by
  have hb := meter.current.overruns.toNat_lt
  cases consumer with
  | voltage =>
    show meter.current.overruns.toNat = min (meter.current.overruns.toNat + 0) _
    omega
  | cycle =>
    show meter.current.overruns.toNat = min (meter.current.overruns.toNat + 0) _
    omega
  | current =>
    show (meter.handleCurrent sample).current.overruns.toNat = _
    rw [meter.handleCurrent_overruns, length_lostBy_handled]

/-- Each loss is on the count of whoever made the offer, also if the intake was replaced. -/
structure Counted (es : List Event) (p : Pipeline) : Prop where
  intakes : ∃ (past : List Nat) (now : Nat),
    (es.flatMap Event.retired).map UInt32.toNat = past.map (min · (2 ^ 32 - 1)) ∧
    p.intake.overruns.toNat = min now (2 ^ 32 - 1) ∧
    past.sum + now = (lostBy .voltage es).length + (lostBy .current es).length
  current : p.current.overruns.toNat = min (lostBy .cycle es).length (2 ^ 32 - 1)

theorem counted_setting {es : List Event} {p q : Pipeline} (hw : SameWork p q)
    (h : Counted es p) : Counted es q := by
  constructor
  · rw [hw.overruns]; exact h.intakes
  · rw [hw.current]; exact h.current

theorem counted_event {es : List Event} {e : Event} (h : Counted es e.before) :
    Counted (es ++ [e]) e.after := by
  obtain ⟨past, now, hp, hn, hl⟩ := h.intakes
  cases e with
  | interrupted meter =>
    constructor
    · refine ⟨past, now + (lostBy .voltage [.interrupted meter]).length +
        (lostBy .current [.interrupted meter]).length, ?_, ?_, ?_⟩
      · simpa [Event.retired] using hp
      · show meter.interrupt.2.intake.overruns.toNat = _
        rw [overruns_interrupted]
        change meter.intake.overruns.toNat = _ at hn
        omega
      · rw [lostBy_append, lostBy_append, List.length_append, List.length_append]
        omega
    · rw [lostBy_no_offer rfl]
      exact h.current
  | restarted meter =>
    constructor
    · -- What the old intake counted is past, and the new one has counted nothing.
      refine ⟨past ++ [now], 0, ?_, rfl, ?_⟩
      · have hlast : meter.intake.overruns.toNat = min now (2 ^ 32 - 1) := hn
        simp [Event.retired, hp, hlast]
      · rw [lostBy_no_offer rfl, lostBy_no_offer rfl]
        simpa using hl
    · rw [lostBy_no_offer rfl]
      exact h.current
  | handled meter consumer sample =>
    constructor
    · refine ⟨past, now, ?_, ?_, ?_⟩
      · simpa [Event.retired] using hp
      · cases consumer <;> exact hn
      · rw [lostBy_no_offer rfl, lostBy_no_offer rfl]
        exact hl
    · have hc := h.current
      change meter.current.overruns.toNat = _ at hc
      show (meter.handle consumer sample).2.current.overruns.toNat = _
      rw [overruns_handled, lostBy_append, List.length_append]
      omega

theorem counted_kept : Kept (fun _ => True) Counted :=
  kept_of_events (fun _ hs _ p h => counted_setting (sameWork_setting hs p) h)
    (fun _ _ _ h => ⟨h.intakes, h.current⟩) fun _ _ h => counted_event h

/-- Each queue holds, in order, what it took and its consumer has not handled yet, and each
loss is on the count of whoever made the offer. -/
structure Balanced (es : List Event) (p : Pipeline) : Prop extends Counted es p where
  bounded : ∀ consumer, (p.queues.get consumer).length ≤ DesignPoint.queueDepth
  in_order : ∀ consumer,
    samplesHandled consumer es ++ (p.queues.get consumer).samples = takenBy consumer es

/-- Whatever an event handles has left the queue it waited in, so the order is kept. -/
theorem in_order_after {es : List Event} {p : Pipeline} {e : Event} {consumer : Consumer}
    (h : samplesHandled consumer es ++ (p.queues.get consumer).samples = takenBy consumer es)
    (he : e.handledBy consumer ++ (e.before.queues.get consumer).samples =
      (p.queues.get consumer).samples) :
    samplesHandled consumer (es ++ [e]) ++ (e.after.queues.get consumer).samples =
      takenBy consumer (es ++ [e]) := by
  calc samplesHandled consumer (es ++ [e]) ++ (e.after.queues.get consumer).samples
      = samplesHandled consumer es ++
          (e.handledBy consumer ++ (e.before.queues.get consumer).samples) ++
            takenBy consumer [e] := by
        rw [samplesHandled_snoc, samples_after]
        simp only [List.append_assoc]
    _ = takenBy consumer (es ++ [e]) := by rw [he, h, takenBy_append]

theorem balanced_setting {es : List Event} {p q : Pipeline} (hw : SameWork p q)
    (h : Balanced es p) : Balanced es q := by
  constructor
  · exact counted_setting hw h.toCounted
  · rw [hw.queues]; exact h.bounded
  · rw [hw.queues]; exact h.in_order

theorem balanced_interrupt {es : List Event} {p : Pipeline} (h : Balanced es p) :
    Balanced (es ++ [.interrupted p]) p.interrupt.2 := by
  constructor
  · exact counted_event (e := .interrupted p) h.toCounted
  · intro consumer
    exact length_after_le (e := .interrupted p) (h.bounded consumer)
  · intro consumer
    exact in_order_after (e := .interrupted p) (h.in_order consumer) rfl

theorem balanced_restart {es : List Event} {p : Pipeline} (h : Balanced es p) :
    Balanced (es ++ [.restarted p]) p.restart := by
  constructor
  · exact counted_event (e := .restarted p) h.toCounted
  · exact h.bounded
  · intro consumer
    exact in_order_after (e := .restarted p) (h.in_order consumer) rfl

theorem balanced_serve {es : List Event} {p : Pipeline} {consumer : Consumer} {sample : Sample}
    {queues : SampleQueues} (hr : p.queues.receive? consumer = some (sample, queues))
    (h : Balanced es p) :
    Balanced (es ++ [.handled { p with queues } consumer sample])
      ({ p with queues }.handle consumer sample).2 := by
  obtain ⟨hown, hother⟩ := SampleQueues.receive?_eq_some hr
  constructor
  · exact counted_event (e := .handled { p with queues } consumer sample) ⟨h.intakes, h.current⟩
  · intro other
    apply length_after_le (e := .handled { p with queues } consumer sample)
    show (queues.get other).length ≤ _
    by_cases hc : other = consumer
    · subst hc
      have hb := h.bounded other
      unfold SampleQueue.length at hb ⊢
      rw [hown, List.length_cons] at hb
      omega
    · rw [hother other hc]
      exact h.bounded other
  · intro other
    apply in_order_after (e := .handled { p with queues } consumer sample) (h.in_order other)
    show (if consumer = other then [sample] else []) ++ (queues.get other).samples = _
    by_cases hc : other = consumer
    · subst hc
      rw [if_pos rfl, hown]
      rfl
    · rw [if_neg (Ne.symm hc), hother other hc]
      rfl

theorem balanced_kept : Kept (fun s => s.inService = true) Balanced where
  setting _ hs _ _ p h := balanced_setting (sameWork_setting hs p) h
  interrupt _ _ h := balanced_interrupt h
  restart _ _ _ h := balanced_restart h
  serve _ _ _ _ _ hr h := balanced_serve hr h
  hand _ _ hs := nomatch hs
  send _ _ hs := nomatch hs
  receive _ hs := nomatch hs

theorem counted_built {settings : MeterSettings} {p : Pipeline} (h : p.BuiltFrom settings) :
    Counted [] p := by
  have hu := h.unused
  constructor
  · exact ⟨[], 0, rfl, by rw [hu.overruns]; rfl, rfl⟩
  · rw [hu.current]; rfl

theorem balanced_built {settings : MeterSettings} {p : Pipeline} (h : p.BuiltFrom settings) :
    Balanced [] p := by
  have hu := h.unused
  constructor
  · exact counted_built h
  · rw [hu.queues]
    intro consumer
    cases consumer <;> decide
  · rw [hu.queues]
    intro consumer
    cases consumer <;> rfl

/-- After every schedule in service the balance holds of a meter just built. -/
theorem balanced_run {settings : MeterSettings} {p : Pipeline} (h : p.BuiltFrom settings)
    {steps : List Step} (hs : ∀ s ∈ steps, s.inService = true) :
    Balanced (p.events steps) (p.run steps).2 :=
  balanced_kept.run hs (balanced_built h)

/-- The pair that a step answered. -/
def Outcome.read : Outcome → List Sample
  | .sampled result => result.toOption.toList
  | _ => []

/-- The answer of an interrupt. -/
def Event.answers : Event → List (Except Fault Sample)
  | .interrupted meter => [meter.interrupt.1]
  | _ => []

def Outcome.answers : Outcome → List (Except Fault Sample)
  | .sampled result => [result]
  | _ => []

theorem answers_serve (p : Pipeline) (consumer : Consumer) :
    (p.serveEvents consumer).flatMap Event.answers = [] := by
  unfold Pipeline.serveEvents
  cases p.queues.receive? consumer <;> rfl

theorem answers_events (p : Pipeline) (steps : List Step) :
    (p.events steps).flatMap Event.answers = (p.run steps).1.flatMap Outcome.answers := by
  apply Pipeline.flatMap_events
  intro p s
  cases s with
  | interrupt => exact List.append_nil _
  | serve consumer => exact answers_serve p consumer
  | drain consumer =>
    have hd := Pipeline.flatMap_serveTimesEvents (g := fun _ => [])
      (fun p => answers_serve p consumer) (p.queues.get consumer).length p
    exact hd.trans (List.flatMap_eq_nil_iff.mpr fun _ _ => rfl)
  | restart | hand | send | receive => rfl
  | appendScript | setHour | setScale | setTestMode | loadPlan | selectPlan | changeStore => rfl

/-- What depends on the answers of interrupts only can be read off the answers of a run. -/
theorem flatMap_answers {α : Type} {f : Event → List α} {g : Outcome → List α}
    {r : Except Fault Sample → List α} (hf : ∀ e : Event, f e = e.answers.flatMap r)
    (hg : ∀ outcome : Outcome, g outcome = outcome.answers.flatMap r) (p : Pipeline)
    (steps : List Step) : (p.events steps).flatMap f = (p.run steps).1.flatMap g := by
  rw [funext hf, funext hg, ← List.flatMap_assoc, answers_events, List.flatMap_assoc]

/-- The pairs among the events of a run are those that its interrupts answered. -/
theorem samplesRead_events (p : Pipeline) (steps : List Step) :
    samplesRead (p.events steps) = (p.run steps).1.flatMap Outcome.read := by
  apply flatMap_answers (r := fun answer => answer.toOption.toList)
  · intro e
    cases e with
    | interrupted meter => exact (List.append_nil _).symm
    | restarted | handled => rfl
  · intro outcome
    cases outcome with
    | sampled result => exact (List.append_nil _).symm
    | done | restarted | served | drained | handed | sent | received | planned => rfl

def Served.samples : Served → List Sample
  | .idle => []
  | .handled sample _ => [sample]

/-- The samples that a consumer handled in a step, by the answer to it. -/
def handledIn (consumer : Consumer) : Step → Outcome → List Sample
  | .serve server, .served answer => if server = consumer then answer.samples else []
  | .drain server, .drained answers =>
    if server = consumer then answers.flatMap Served.samples else []
  | .hand server sample, _ => if server = consumer then [sample] else []
  | _, _ => []

theorem samplesHandled_serve (p : Pipeline) (server consumer : Consumer) :
    (p.serveEvents server).flatMap (Event.handledBy consumer) =
      if server = consumer then (p.serve server).1.samples else [] := by
  unfold Pipeline.serveEvents Pipeline.serve
  cases p.queues.receive? server with
  | none => exact (ite_self _).symm
  | some taken => exact List.append_nil _

/-- What a consumer handled among the events of a run is what the run answered. -/
theorem samplesHandled_events (consumer : Consumer) (p : Pipeline) (steps : List Step) :
    samplesHandled consumer (p.events steps) = (steps.zip (p.run steps).1).flatMap
      fun answered => handledIn consumer answered.1 answered.2 := by
  apply Pipeline.flatMap_events_zip
  intro p s
  cases s with
  | serve server => exact samplesHandled_serve p server consumer
  | drain server =>
    have hone := fun p : Pipeline => samplesHandled_serve p server consumer
    show (p.serveTimesEvents server (p.queues.get server).length).flatMap _ =
      if server = consumer then (p.drain server).1.flatMap Served.samples else []
    by_cases hs : server = consumer
    · simp only [hs, if_true] at hone ⊢
      exact Pipeline.flatMap_serveTimesEvents hone _ p
    · simp only [hs, if_false] at hone ⊢
      have hd := Pipeline.flatMap_serveTimesEvents (g := fun _ => []) hone
        (p.queues.get server).length p
      exact hd.trans (List.flatMap_eq_nil_iff.mpr fun _ _ => rfl)
  | hand server sample => exact List.append_nil _
  | interrupt | restart | send | receive => rfl
  | appendScript | setHour | setScale | setTestMode | loadPlan | selectPlan | changeStore => rfl

theorem Balanced.length_offersTo {es : List Event} {p : Pipeline} (h : Balanced es p)
    (consumer : Consumer) : (offersTo consumer es).length = (samplesHandled consumer es).length +
      (p.queues.get consumer).length + (lostBy consumer es).length := by
  have ho := congrArg List.length (h.in_order consumer)
  rw [List.length_append] at ho
  rw [EnergyMeter.length_offersTo, ← ho]
  rfl

theorem Counted.losses {es : List Event} {p : Pipeline} (h : Counted es p) :
    ∃ losses : List Nat,
      (overrunCounts es p).map UInt32.toNat = losses.map (min · (2 ^ 32 - 1)) ∧
      losses.sum = (lostBy .voltage es).length + (lostBy .current es).length := by
  obtain ⟨past, now, hp, hn, hl⟩ := h.intakes
  refine ⟨past ++ [now], ?_, ?_⟩
  · rw [overrunCounts, List.map_append, hp, List.map_append, List.map_singleton, hn,
      List.map_singleton]
  · simpa using hl

theorem retired_kept : Kept (· ≠ .restart) fun es _ => es.flatMap Event.retired = [] where
  setting _ _ _ _ _ h := h
  interrupt _ _ h := by rw [List.flatMap_append, h]; rfl
  restart h := absurd rfl h
  serve _ _ _ _ _ _ h := by rw [List.flatMap_append, h]; rfl
  hand _ _ _ _ _ h := by rw [List.flatMap_append, h]; rfl
  send _ _ _ _ _ _ _ h := h
  receive _ _ _ _ _ _ _ h := h

theorem retired_run {p : Pipeline} {steps : List Step} (h : Step.restart ∉ steps) :
    (p.events steps).flatMap Event.retired = [] :=
  retired_kept.run (fun _ hm hs => h (hs ▸ hm)) rfl

/-- An intake that is never replaced has all losses of the channels on its own count. -/
theorem Counted.overruns {es : List Event} {p : Pipeline} (h : Counted es p)
    (hr : es.flatMap Event.retired = []) : p.intake.overruns.toNat =
      min ((lostBy .voltage es).length + (lostBy .current es).length) (2 ^ 32 - 1) := by
  obtain ⟨past, now, hp, hn, hl⟩ := h.intakes
  rw [hr] at hp
  obtain rfl : past = [] := List.map_eq_nil_iff.mp hp.symm
  rw [List.sum_nil, Nat.zero_add] at hl
  rw [hn, hl]

end EnergyMeter
