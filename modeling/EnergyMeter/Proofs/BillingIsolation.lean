import EnergyMeter.Proofs.BillingTotals

/-!
# Billing does not depend on the voltage consumer

The voltage consumer reads its own queue and writes its own stage, the timer and three of the
totals. What is billed reads none of these but the voltage RMS, and that only for the power
factor. So two runs that differ in the servings of the voltage consumer alone bill alike, also
when its queue overflows in one of them.
-/
namespace EnergyMeter

open Pipeline (usual)

/-- The voltage consumer is served, or handed a sample past its queue. -/
def Step.isVoltageConsumer : Step → Bool
  | .serve .voltage | .drain .voltage | .hand .voltage _ => true
  | _ => false

/-- The totals without what the voltage consumer writes and without the power factor. -/
def Totals.billed (totals : Totals) : Totals :=
  { totals with voltage := 0, voltageRms := 0, frequencyOffset := 0, powerFactor := 0 }

/-- A bill without its power factor. -/
def CycleBill.withoutFactor (bill : CycleBill) : CycleBill := { bill with powerFactor := 0 }

/-- The RMS values of the moment enter a bill by the power factor alone. -/
theorem CycleBill.withoutFactor_close (sum : Int64) (terms : BillingTerms)
    (voltageRms currentRms otherVoltage otherCurrent : UInt16) :
    (close sum terms voltageRms currentRms).withoutFactor =
      (close sum terms otherVoltage otherCurrent).withoutFactor := rfl

theorem Totals.billed_addBill (totals : Totals) (bill : CycleBill) :
    (totals.addBill bill).billed = (totals.billed.addBill bill.withoutFactor).billed := rfl

theorem Totals.billed_addBill_congr {totals other : Totals} {bill same : CycleBill}
    (h : totals.billed = other.billed) (hb : bill.withoutFactor = same.withoutFactor) :
    (totals.addBill bill).billed = (other.addBill same).billed := by
  rw [billed_addBill, billed_addBill other, h, hb]

/-- Two meters that differ at most in the voltage stage, its queue and its totals, the timer, the
overruns of the intake, the power factor and the log. -/
structure BilledAlike (p q : Pipeline) : Prop where
  converter : p.intake.converter = q.intake.converter
  queues : ∀ consumer, consumer ≠ .voltage → p.queues.get consumer = q.queues.get consumer
  current : p.current = q.current
  cycle : p.cycle = q.cycle
  active : p.active = q.active
  store : p.store = q.store
  scale : p.scale = q.scale
  hour : p.hour = q.hour
  totals : p.board.totals.billed = q.board.totals.billed

namespace BilledAlike

variable {p q r : Pipeline}

theorem refl (p : Pipeline) : BilledAlike p p :=
  ⟨rfl, fun _ _ => rfl, rfl, rfl, rfl, rfl, rfl, rfl, rfl⟩

theorem symm (h : BilledAlike p q) : BilledAlike q p :=
  ⟨h.converter.symm, fun consumer hc => (h.queues consumer hc).symm, h.current.symm,
    h.cycle.symm, h.active.symm, h.store.symm, h.scale.symm, h.hour.symm, h.totals.symm⟩

theorem trans (h : BilledAlike p q) (k : BilledAlike q r) : BilledAlike p r :=
  ⟨h.converter.trans k.converter,
    fun consumer hc => (h.queues consumer hc).trans (k.queues consumer hc),
    h.current.trans k.current, h.cycle.trans k.cycle, h.active.trans k.active,
    h.store.trans k.store, h.scale.trans k.scale, h.hour.trans k.hour, h.totals.trans k.totals⟩

theorem handleVoltage (p : Pipeline) (raw : Int16) : BilledAlike (p.handleVoltage raw) p :=
  ⟨rfl, fun _ _ => rfl, rfl, rfl, rfl, rfl, rfl, rfl, by rw [p.handleVoltage_totals]; rfl⟩

theorem voltageQueue (p : Pipeline) (queue : SampleQueue) :
    BilledAlike { p with queues := p.queues.set .voltage queue } p :=
  ⟨rfl, fun _ hc => SampleQueues.get_set_of_ne _ hc queue, rfl, rfl, rfl, rfl, rfl, rfl, rfl⟩

theorem sendVoltage (p : Pipeline) (sample : Sample) :
    BilledAlike (p.send .voltage sample).2 p := by
  unfold Pipeline.send SampleQueues.send?
  cases (p.queues.get .voltage).send? sample with
  | none => exact refl p
  | some queue => exact voltageQueue p queue

theorem receiveVoltage (p : Pipeline) : BilledAlike (p.receive .voltage).2 p := by
  unfold Pipeline.receive SampleQueues.receive?
  cases (p.queues.get .voltage).receive? with
  | none => exact refl p
  | some taken => exact voltageQueue p taken.2

theorem serveVoltage (p : Pipeline) :
    BilledAlike (p.serve .voltage).2 p ∧ (p.serve .voltage).1.bills = [] := by
  unfold Pipeline.serve SampleQueues.receive?
  cases (p.queues.get .voltage).receive? with
  | none => exact ⟨refl p, rfl⟩
  | some taken =>
    exact ⟨(handleVoltage _ taken.1.voltage).trans (voltageQueue p taken.2), rfl⟩

theorem serveTimesVoltage (n : Nat) (p : Pipeline) :
    BilledAlike (p.serveTimes .voltage n).2 p ∧
      (p.serveTimes .voltage n).1.flatMap Served.bills = [] := by
  induction n generalizing p with
  | zero => exact ⟨refl p, rfl⟩
  | succ n ih =>
    obtain ⟨hfirst, hbills⟩ := serveVoltage p
    obtain ⟨hrest, hmore⟩ := ih (p.serve .voltage).2
    refine ⟨hrest.trans hfirst, ?_⟩
    show (p.serve .voltage).1.bills ++ _ = []
    rw [hbills]
    exact hmore

theorem stepVoltage {s : Step} (hs : s.isVoltageConsumer = true) (p : Pipeline) :
    BilledAlike (p.step s).2 p ∧ (p.step s).1.bills = [] := by
  match s, hs with
  | .serve .voltage, _ => exact serveVoltage p
  | .drain .voltage, _ => exact serveTimesVoltage _ p
  | .hand .voltage sample, _ => exact ⟨handleVoltage p sample.voltage, rfl⟩

theorem interrupt (h : BilledAlike p q) : BilledAlike p.interrupt.2 q.interrupt.2 := by
  obtain ⟨hresult, hconverter⟩ := Intake.interrupt_converter h.converter p.queues q.queues
  refine ⟨hconverter, ?_, h.current, h.cycle, h.active, h.store, h.scale, h.hour, h.totals⟩
  intro consumer hc
  cases hr : q.interrupt.1 with
  | error fault =>
    rw [(Pipeline.interrupt_error hr).1, (Pipeline.interrupt_error (hresult.trans hr)).1]
    exact h.queues consumer hc
  | ok sample =>
    rw [(Pipeline.interrupt_ok hr).1, (Pipeline.interrupt_ok (hresult.trans hr)).1]
    cases consumer with
    | voltage => exact absurd rfl hc
    | current => exact congrArg (·.afterOffer sample) (h.queues .current hc)
    | cycle => exact h.queues .cycle hc

theorem handleCurrent (h : BilledAlike p q) (sample : Sample) :
    BilledAlike (p.handleCurrent sample) (q.handleCurrent sample) := by
  have hcycle : p.queues.cycle = q.queues.cycle := h.queues .cycle (by decide)
  have hstage : (p.handleCurrent sample).current = (q.handleCurrent sample).current := by
    unfold Pipeline.handleCurrent CurrentStage.handle
    rw [h.current, hcycle]
    cases q.queues.cycle.send? sample <;> rfl
  refine ⟨h.converter, ?_, hstage, h.cycle, h.active, h.store, h.scale, h.hour, ?_⟩
  · intro consumer hc
    rw [p.handleCurrent_queues, q.handleCurrent_queues, hcycle]
    cases consumer with
    | voltage => exact absurd rfl hc
    | current => exact h.queues .current hc
    | cycle => rfl
  · rw [p.handleCurrent_totals, q.handleCurrent_totals, hstage]
    exact congrArg (fun totals : Totals => { totals with
      current := sample.current
      currentRms := (q.handleCurrent sample).current.rms.rms }) h.totals

theorem addCycle {totals other : Totals} (h : totals.billed = other.billed) (meter : CycleMeter)
    (terms : BillingTerms) (sample : Sample) :
    let done := (meter.add terms totals sample).value
    let same := (meter.add terms other sample).value
    done.meter = same.meter ∧ done.totals.billed = same.totals.billed ∧
      done.bill.map CycleBill.withoutFactor = same.bill.map CycleBill.withoutFactor := by
  have hbill := CycleBill.withoutFactor_close (meter.sum + CycleMeter.product sample) terms
    totals.voltageRms totals.currentRms other.voltageRms other.currentRms
  simp only [CycleMeter.add]
  split
  · exact ⟨rfl, h, rfl⟩
  · exact ⟨rfl, Totals.billed_addBill_congr h hbill, congrArg some hbill⟩

theorem handleCycle (h : BilledAlike p q) (sample : Sample) :
    BilledAlike (p.handleCycle sample).2 (q.handleCycle sample).2 ∧
      (p.handleCycle sample).1.map CycleBill.withoutFactor =
        (q.handleCycle sample).1.map CycleBill.withoutFactor := by
  have hterms : p.terms = q.terms := by
    unfold Pipeline.terms
    rw [h.active, h.hour, h.scale]
  obtain ⟨hmeter, htotals, hbill⟩ := addCycle h.totals q.cycle q.terms sample
  unfold Pipeline.handleCycle
  rw [h.cycle, hterms]
  exact ⟨⟨h.converter, h.queues, h.current, hmeter, h.active, h.store, h.scale, h.hour, htotals⟩,
    hbill⟩

/-- The other consumers answer the same but for the power factor. -/
theorem handle (h : BilledAlike p q) {consumer : Consumer} (hc : consumer ≠ .voltage)
    (sample : Sample) :
    BilledAlike (p.handle consumer sample).2 (q.handle consumer sample).2 ∧
      (p.handle consumer sample).1.map CycleBill.withoutFactor =
        (q.handle consumer sample).1.map CycleBill.withoutFactor := by
  cases consumer with
  | voltage => exact absurd rfl hc
  | current => exact ⟨h.handleCurrent sample, rfl⟩
  | cycle => exact h.handleCycle sample

theorem withQueue (h : BilledAlike p q) (consumer : Consumer) (queue : SampleQueue) :
    BilledAlike { p with queues := p.queues.set consumer queue }
      { q with queues := q.queues.set consumer queue } := by
  refine ⟨h.converter, ?_, h.current, h.cycle, h.active, h.store, h.scale, h.hour, h.totals⟩
  intro server hs
  by_cases he : server = consumer
  · subst he
    simp only [SampleQueues.get_set_self]
  · simp only [SampleQueues.get_set_of_ne _ he]
    exact h.queues server hs

theorem serve (h : BilledAlike p q) {consumer : Consumer} (hc : consumer ≠ .voltage) :
    BilledAlike (p.serve consumer).2 (q.serve consumer).2 ∧
      (p.serve consumer).1.bills.map CycleBill.withoutFactor =
        (q.serve consumer).1.bills.map CycleBill.withoutFactor := by
  unfold Pipeline.serve SampleQueues.receive?
  rw [h.queues consumer hc]
  cases (q.queues.get consumer).receive? with
  | none => exact ⟨h, rfl⟩
  | some taken =>
    obtain ⟨sample, rest⟩ := taken
    obtain ⟨halike, hbill⟩ := (h.withQueue consumer rest).handle hc sample
    refine ⟨halike, ?_⟩
    have hbills := congrArg Option.toList hbill
    rwa [Option.toList_map, Option.toList_map] at hbills

theorem serveTimes (h : BilledAlike p q) {consumer : Consumer} (hc : consumer ≠ .voltage)
    (n : Nat) :
    BilledAlike (p.serveTimes consumer n).2 (q.serveTimes consumer n).2 ∧
      ((p.serveTimes consumer n).1.flatMap Served.bills).map CycleBill.withoutFactor =
        ((q.serveTimes consumer n).1.flatMap Served.bills).map CycleBill.withoutFactor := by
  induction n generalizing p q with
  | zero => exact ⟨h, rfl⟩
  | succ n ih =>
    obtain ⟨hfirst, hbills⟩ := h.serve hc
    obtain ⟨hrest, hmore⟩ := ih hfirst
    refine ⟨hrest, ?_⟩
    simp only [Pipeline.serveTimes, List.flatMap_cons, List.map_append]
    rw [hbills, hmore]

theorem send (h : BilledAlike p q) (consumer : Consumer) (sample : Sample) :
    BilledAlike (p.send consumer sample).2 (q.send consumer sample).2 := by
  by_cases hc : consumer = .voltage
  · subst hc
    exact (sendVoltage p sample).trans (h.trans (sendVoltage q sample).symm)
  · unfold Pipeline.send SampleQueues.send?
    rw [h.queues consumer hc]
    cases (q.queues.get consumer).send? sample with
    | none => exact h
    | some queue => exact h.withQueue consumer queue

theorem receive (h : BilledAlike p q) (consumer : Consumer) :
    BilledAlike (p.receive consumer).2 (q.receive consumer).2 := by
  by_cases hc : consumer = .voltage
  · subst hc
    exact (receiveVoltage p).trans (h.trans (receiveVoltage q).symm)
  · unfold Pipeline.receive SampleQueues.receive?
    rw [h.queues consumer hc]
    cases (q.queues.get consumer).receive? with
    | none => exact h
    | some taken => exact h.withQueue consumer taken.2

/-- The answer to a request about the plan depends on the plan and its store alone. -/
theorem settle (h : BilledAlike p q) (request : ActivePlan → PlanStore → Noted PlanAnswer) :
    BilledAlike (p.settle (request p.active p.store)).2
      (q.settle (request q.active q.store)).2 := by
  rw [h.active, h.store]
  exact ⟨h.converter, h.queues, h.current, h.cycle, rfl, rfl, h.scale, h.hour, h.totals⟩

theorem step (h : BilledAlike p q) {s : Step} (hs : s.isVoltageConsumer = false) :
    BilledAlike (p.step s).2 (q.step s).2 ∧
      (p.step s).1.bills.map CycleBill.withoutFactor =
        (q.step s).1.bills.map CycleBill.withoutFactor := by
  cases s with
  | interrupt => exact ⟨h.interrupt, rfl⟩
  | serve consumer =>
    have hc : consumer ≠ .voltage := by
      rintro rfl
      cases hs
    exact h.serve hc
  | drain consumer =>
    have hc : consumer ≠ .voltage := by
      rintro rfl
      cases hs
    simp only [Pipeline.step, Pipeline.drain, h.queues consumer hc]
    exact h.serveTimes hc _
  | hand consumer sample =>
    have hc : consumer ≠ .voltage := by
      rintro rfl
      cases hs
    obtain ⟨halike, hbill⟩ := h.handle hc sample
    have hbills := congrArg Option.toList hbill
    rw [Option.toList_map, Option.toList_map] at hbills
    exact ⟨halike, hbills⟩
  | send consumer sample => exact ⟨h.send consumer sample, rfl⟩
  | receive consumer => exact ⟨h.receive consumer, rfl⟩
  | loadPlan => exact ⟨h.settle ActivePlan.load, rfl⟩
  | selectPlan byte => exact ⟨h.settle (·.select · byte), rfl⟩
  | appendScript script =>
    exact ⟨{ h with converter := congrArg (·.append script) h.converter }, rfl⟩
  | restart => exact ⟨{ h with }, rfl⟩
  | setHour => exact ⟨{ h with hour := rfl }, rfl⟩
  | setScale | setTestMode => exact ⟨{ h with scale := rfl }, rfl⟩
  | changeStore change => exact ⟨{ h with store := congrArg (·.change change) h.store }, rfl⟩

end BilledAlike

/-- The bills that a schedule returns. -/
def Pipeline.billsReturned (p : Pipeline) (steps : List Step) : List CycleBill :=
  (p.run steps).1.flatMap Outcome.bills

/-- A run bills like the same run without the steps of the voltage consumer. -/
theorem billedAlike_filter {p q : Pipeline} (h : BilledAlike p q) (steps : List Step) :
    BilledAlike (p.run steps).2 (q.run (steps.filter fun s => !s.isVoltageConsumer)).2 ∧
      (p.billsReturned steps).map CycleBill.withoutFactor =
        (q.billsReturned (steps.filter fun s => !s.isVoltageConsumer)).map
          CycleBill.withoutFactor := by
  induction steps generalizing p q with
  | nil => exact ⟨h, rfl⟩
  | cons first rest ih =>
    by_cases hv : first.isVoltageConsumer = true
    · -- The step is filtered out: the second meter stays where it is.
      obtain ⟨hfirst, hbills⟩ := BilledAlike.stepVoltage hv p
      obtain ⟨hrest, hmore⟩ := ih (hfirst.trans h)
      rw [List.filter_cons_of_neg (by simp [hv])]
      refine ⟨hrest, ?_⟩
      show (((p.step first).1.bills ++ (p.step first).2.billsReturned rest)).map _ = _
      rw [hbills]
      exact hmore
    · obtain ⟨hfirst, hbills⟩ := h.step (Bool.eq_false_iff.mpr hv)
      obtain ⟨hrest, hmore⟩ := ih hfirst
      rw [List.filter_cons_of_pos (by simp [hv])]
      refine ⟨hrest, ?_⟩
      show ((p.step first).1.bills ++ (p.step first).2.billsReturned rest).map _ =
        ((q.step first).1.bills ++ (q.step first).2.billsReturned _).map _
      rw [List.map_append, List.map_append, hbills, hmore]

/-- Two schedules that differ in steps of the voltage consumer alone leave meters that are billed
alike, and return the same bills but for the power factors. -/
theorem billing_isolated (p : Pipeline) {steps others : List Step}
    (h : steps.filter (fun s => !s.isVoltageConsumer) =
      others.filter fun s => !s.isVoltageConsumer) :
    BilledAlike (p.run steps).2 (p.run others).2 ∧
      (p.billsReturned steps).map CycleBill.withoutFactor =
        (p.billsReturned others).map CycleBill.withoutFactor := by
  obtain ⟨halike, hbills⟩ := billedAlike_filter (.refl p) steps
  obtain ⟨hother, hmore⟩ := billedAlike_filter (.refl p) others
  rw [h] at halike hbills
  exact ⟨halike.trans hother.symm, hbills.trans hmore.symm⟩

/-- A plan is selected, then seventeen pairs and a fault are taken, with these steps after each
interrupt before the other consumers are served. -/
def meteredWith (voltage : List Step) : List Step :=
  .selectPlan 2 ::
    .appendScript ((.failed 7) :: (List.range 17).flatMap fun k =>
      [.done (Int16.ofNat (500 * k)), .busy 1, .done 900]) ::
    (List.replicate 18 (.interrupt :: voltage ++ [.drain .current, .serve .cycle])).flatten

/-- Without its consumer the voltage queue overflows and the power factor is lost, but the cycle is
billed alike. -/
theorem billing_isolated_starved :
    ((meteredWith [.serve .voltage]).filter (fun s => !s.isVoltageConsumer) =
        (meteredWith []).filter fun s => !s.isVoltageConsumer) ∧
      (BilledAlike (usual.run (meteredWith [.serve .voltage])).2 (usual.run (meteredWith [])).2 ∧
        (usual.billsReturned (meteredWith [.serve .voltage])).map CycleBill.withoutFactor =
          (usual.billsReturned (meteredWith [])).map CycleBill.withoutFactor) ∧
      ((usual.run (meteredWith [.serve .voltage])).2.intake.overruns,
        (usual.run (meteredWith [])).2.intake.overruns) = (0, 13) ∧
      ((usual.billsReturned (meteredWith [.serve .voltage])).map (·.powerFactor),
        (usual.billsReturned (meteredWith [])).map (·.powerFactor)) = ([256], [0]) :=
  ⟨by decide +kernel, billing_isolated usual (by decide +kernel), by decide +kernel,
    by decide +kernel⟩

end EnergyMeter
