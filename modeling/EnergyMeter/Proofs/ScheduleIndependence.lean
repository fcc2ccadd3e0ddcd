import EnergyMeter.Proofs.SampleAccount

/-!
# The schedule does not matter

Interrupts and consumers may interleave in any order. If nothing was lost and nothing waits in
the end, every consumer handled the same pairs in the same order, those that the interrupts
returned; so the whole meter but the power factor is a function of these pairs. The power
factor of a cycle is taken from the RMS values of the moment, which depend on how far the
channels have got by then.
-/
namespace EnergyMeter

open Pipeline (usual builtFrom_usual startLoop)

/-- Interrupts and servings only: plan, hour and scale stay, and so does the intake. -/
def Step.isMetering : Step → Bool
  | .appendScript _ | .interrupt | .serve _ | .drain _ => true
  | _ => false

/-- The pairs that the interrupts of a schedule return. -/
def Pipeline.pairsRead (p : Pipeline) (steps : List Step) : List Sample :=
  (p.run steps).1.flatMap Outcome.read

/-- A schedule that loses nothing and leaves nothing waiting. -/
structure Lossless (p : Pipeline) (steps : List Step) : Prop where
  metering : ∀ s ∈ steps, s.isMetering = true
  intake : (p.run steps).2.intake.overruns = 0
  current : (p.run steps).2.current.overruns = 0
  queues : (p.run steps).2.queues = {}

theorem inService_of_isMetering {s : Step} (h : s.isMetering = true) : s.inService = true := by
  cases s <;> first | rfl | cases h

theorem takenBy_of_lostBy {consumer : Consumer} {es : List Event} (h : lostBy consumer es = []) :
    takenBy consumer es = (offersTo consumer es).map Prod.fst := by
  have hnone := List.filter_eq_nil_iff.mp (List.map_eq_nil_iff.mp h)
  have hall : (offersTo consumer es).filter (fun offer => offer.2.HasRoom) =
      offersTo consumer es := by
    apply List.filter_eq_self.mpr
    intro offer hm
    simpa using hnone offer hm
  rw [takenBy, hall]

/-- Without overruns no queue ever refused a sample. -/
theorem Counted.none_lost {es : List Event} {p : Pipeline} (h : Counted es p)
    (hr : es.flatMap Event.retired = []) (hi : p.intake.overruns = 0)
    (hc : p.current.overruns = 0) (consumer : Consumer) : lostBy consumer es = [] := by
  have hchannels := h.overruns hr
  rw [hi] at hchannels
  change 0 = min _ (2 ^ 32 - 1) at hchannels
  have hcycle := h.current
  rw [hc] at hcycle
  change 0 = min _ (2 ^ 32 - 1) at hcycle
  cases consumer with
  | voltage => exact List.eq_nil_of_length_eq_zero (by omega)
  | current => exact List.eq_nil_of_length_eq_zero (by omega)
  | cycle => exact List.eq_nil_of_length_eq_zero (by omega)

theorem samplesHandled_lossless {settings : MeterSettings} {p : Pipeline}
    (hp : p.BuiltFrom settings) {steps : List Step} (h : Lossless p steps) (consumer : Consumer) :
    samplesHandled consumer (p.events steps) = p.pairsRead steps := by
  have hb := balanced_run hp fun s hm => inService_of_isMetering (h.metering s hm)
  have hr : (p.events steps).flatMap Event.retired = [] :=
    retired_run fun hm => nomatch h.metering _ hm
  have htaken : ∀ consumer, samplesHandled consumer (p.events steps) =
      (offersTo consumer (p.events steps)).map Prod.fst := by
    intro consumer
    have ho := hb.in_order consumer
    have hempty : ((p.run steps).2.queues.get consumer).samples = [] := by
      rw [h.queues]
      cases consumer <;> rfl
    rw [hempty, List.append_nil] at ho
    rw [ho, takenBy_of_lostBy (hb.none_lost hr h.intake h.current consumer)]
  obtain ⟨hv, hc, ha⟩ := map_fst_offersTo (p.events steps)
  have hread : samplesRead (p.events steps) = p.pairsRead steps := samplesRead_events p steps
  have hcurrent : samplesHandled .current (p.events steps) = p.pairsRead steps := by
    rw [htaken, hc, hread]
  cases consumer with
  | voltage => rw [htaken, hv, hread]
  | current => exact hcurrent
  | cycle => rw [htaken, ha, hcurrent]

theorem terms_enter {book : CycleBook} {terms : BillingTerms} {e : Event}
    (hb : ∀ cycle ∈ book.closed, cycle.terms = terms) (he : e.before.terms = terms) :
    ∀ cycle ∈ (book.enter e).closed, cycle.terms = terms := by
  cases e with
  | interrupted meter => exact hb
  | restarted meter => exact hb
  | handled meter consumer sample =>
    cases consumer with
    | voltage => exact hb
    | current => exact hb
    | cycle =>
      simp only [CycleBook.enter]
      cases (meter.handleCycle sample).1 with
      | none => exact hb
      | some bill =>
        intro cycle hm
        rcases List.mem_append.mp hm with hm | hm
        · exact hb cycle hm
        · obtain rfl := List.mem_singleton.mp hm
          exact he

theorem terms_handle (p : Pipeline) (consumer : Consumer) (sample : Sample) :
    (p.handle consumer sample).2.terms = p.terms := by
  cases consumer <;> rfl

/-- Interrupts and servings bill every cycle on the same terms. -/
theorem terms_kept (terms : BillingTerms) :
    Kept (fun s => s.isMetering = true) fun es p =>
      p.terms = terms ∧ ∀ cycle ∈ (cycleBook es).closed, cycle.terms = terms where
  setting s hs ha es p h := by
    cases s with
    | appendScript script => exact h
    | setHour | setScale | setTestMode | loadPlan | selectPlan | changeStore => cases ha
    | interrupt | restart | serve | drain | hand | send | receive => cases hs
  interrupt es p h := by
    rw [cycleBook_snoc]
    exact ⟨h.1, terms_enter h.2 h.1⟩
  restart h := nomatch h
  serve consumer es p sample queues _ h := by
    rw [cycleBook_snoc]
    exact ⟨(terms_handle _ consumer sample).trans h.1, terms_enter h.2 h.1⟩
  hand _ _ h := nomatch h
  send _ _ h := nomatch h
  receive _ h := nomatch h

/-- What one whole cycle is billed: its energy, and the cost of it. -/
def cycleEnergy (terms : BillingTerms) (block : List Sample) : Nat :=
  powerOfSum (productSum block) * terms.scale.value.toNat

def cycleCost (terms : BillingTerms) (block : List Sample) : Nat :=
  cycleEnergy terms block / 2 ^ 16 * terms.rate.toNat / 3600000

/-- A meter of these settings that metered these samples on these terms, its sampling timer
starting from the given one. Of what the samples bear on, only the power factor and the log are
left out. -/
structure Metered (settings : MeterSettings) (timer : TimerLink) (terms : BillingTerms)
    (samples : List Sample) (p : Pipeline) : Prop where
  cycles : p.board.totals.cycles.toNat = samples.length / 16 % 2 ^ 32
  pending : p.cycle.count.toNat = samples.length % 16
  pending_sum : p.cycle.sum.toInt = productSum (openCycle samples)
  warned : p.cycle.warned = (decide (16 ≤ samples.length) && terms.rate == 0)
  energy : p.board.totals.energy.toNat =
    min (2 ^ 64 - 1) ((wholeCycles samples).map (cycleEnergy terms)).sum
  cost : p.board.totals.cost.toNat =
    min (2 ^ 64 - 1) ((wholeCycles samples).map (cycleCost terms)).sum
  averagePower : p.board.totals.averagePower.toNat =
    ((wholeCycles samples).getLast?.map fun block =>
      powerOfSum (productSum block) * 100 / 16).getD 0
  voltage : p.board.totals.voltage = (samples.getLast?.map (·.voltage)).getD 0
  current : p.board.totals.current = (samples.getLast?.map (·.current)).getD 0
  voltage_rms : p.voltage.rms =
    (RunningRms.ofRatio settings.voltageRatio).pushAll (samples.map (·.voltage))
  current_stage : p.current =
    { rms := (RunningRms.ofRatio settings.currentRatio).pushAll (samples.map (·.current)) }
  loop : p.voltage.loop = (startLoop settings).observeAll (samples.map (·.voltage))
  clock : TickClock.ofHertz settings.clockHertz = .ok p.voltage.clock
  published_voltage : p.board.totals.voltageRms = p.voltage.rms.rms
  published_current : p.board.totals.currentRms = p.current.rms.rms
  frequencyOffset : p.board.totals.frequencyOffset = p.voltage.loop.offset
  timer : p.board.timer =
    (p.voltage.clock.reloads ((startLoop settings).moves (samples.map (·.voltage)))).foldl
      TimerLink.perform timer
  in_force : p.terms = terms

/-- The book of a lossless run is the book of the pairs. -/
theorem book_of_samples {es : List Event} {p : Pipeline} {terms : BillingTerms}
    {samples : List Sample} (hb : Booked es p) (hs : samplesHandled .cycle es = samples)
    (ht : ∀ cycle ∈ (cycleBook es).closed, cycle.terms = terms) :
    (cycleBook es).closed.map (·.samples) = wholeCycles samples ∧
      ∀ cycle ∈ (cycleBook es).closed, BilledExactly cycle.samples terms cycle.bill := by
  have hw := hb.cut.1
  rw [hs] at hw
  refine ⟨hw, ?_⟩
  intro cycle hm
  rw [← ht cycle hm]
  exact (hb.closed cycle hm).bill

theorem map_bills {book : CycleBook} {blocks : List (List Sample)} {α : Type}
    (hw : book.closed.map (·.samples) = blocks) {f : CycleBill → α} {g : List Sample → α}
    (h : ∀ cycle ∈ book.closed, f cycle.bill = g cycle.samples) :
    book.bills.map f = blocks.map g := by
  rw [CycleBook.bills, ← hw, List.map_map, List.map_map]
  exact List.map_congr_left h

/-- The bills of a book whose cycles are these blocks, all on the same terms. -/
theorem bills_of_blocks {book : CycleBook} {blocks : List (List Sample)} {terms : BillingTerms}
    (hw : book.closed.map (·.samples) = blocks)
    (hexact : ∀ cycle ∈ book.closed, BilledExactly cycle.samples terms cycle.bill) :
    book.bills.map (·.energy.toNat) = blocks.map (cycleEnergy terms) ∧
      book.bills.map (·.cost.toNat) = blocks.map (cycleCost terms) ∧
      book.bills.map (·.averagePower.toNat) =
        blocks.map (fun block => powerOfSum (productSum block) * 100 / 16) ∧
      ∀ bill ∈ book.bills, bill.rate = terms.rate := by
  refine ⟨?_, ?_, ?_, ?_⟩
  · refine map_bills hw fun cycle hm => ?_
    rw [(hexact cycle hm).energy, (hexact cycle hm).power, cycleEnergy]
  · refine map_bills hw fun cycle hm => ?_
    rw [(hexact cycle hm).cost, (hexact cycle hm).energy, (hexact cycle hm).power, cycleCost,
      cycleEnergy]
  · refine map_bills hw fun cycle hm => ?_
    rw [(hexact cycle hm).averagePower, (hexact cycle hm).power]
  · intro bill hm
    obtain ⟨cycle, hcycle, rfl⟩ := List.mem_map.mp hm
    exact (hexact cycle hcycle).rate

theorem any_of_const {α : Type} {f : α → Bool} {c : Bool} {l : List α} (h : ∀ a ∈ l, f a = c) :
    l.any f = (decide (0 < l.length) && c) := by
  induction l with
  | nil => rfl
  | cons a rest ih =>
    rw [List.any_cons, h a List.mem_cons_self, ih fun b hb => h b (List.mem_cons_of_mem a hb)]
    cases c <;> simp

/-- A lossless run on fixed terms leaves the meter that the pairs make. -/
theorem metered_run {settings : MeterSettings} {p : Pipeline} (hp : p.BuiltFrom settings)
    {steps : List Step} (h : Lossless p steps) :
    Metered settings p.board.timer p.terms (p.pairsRead steps) (p.run steps).2 := by
  have hu := hp.unused
  have hhandled := samplesHandled_lossless hp h
  have hb := booked_run hp.unbilled steps
  have hnone : ∀ cycle ∈ (cycleBook []).closed, cycle.terms = p.terms := by
    intro cycle hm
    cases hm
  obtain ⟨hterms, hclosed⟩ := (terms_kept p.terms).run h.metering ⟨rfl, hnone⟩
  obtain ⟨hw, hexact⟩ := book_of_samples hb (hhandled .cycle) hclosed
  obtain ⟨henergy, hcost, haverage, hrate⟩ := bills_of_blocks hw hexact
  have hcount := hb.length_bills
  rw [hhandled .cycle] at hcount
  have hwarned : ∀ bill ∈ (cycleBook (p.events steps)).bills,
      (bill.rate == 0) = (p.terms.rate == 0) := fun bill hm => by rw [hrate bill hm]
  have hheld := held_run hp steps
  have hv : VoltageFollowed p (p.pairsRead steps) (p.run steps).2 := by
    rw [← hhandled .voltage]
    exact voltageFollowed_run hu steps
  have hc : CurrentFollowed p (p.pairsRead steps) (p.run steps).2 := by
    rw [← hhandled .current]
    exact currentFollowed_run hu steps
  constructor
  · rw [hheld.cycles, hhandled .cycle]
  · rw [hheld.pending, hhandled .cycle]
  · rw [hheld.pending_sum, hhandled .cycle]
  · rw [hb.warned, any_of_const hwarned, hcount]
    congr 1
    exact decide_eq_decide.mpr (by omega)
  · rw [hb.totals.energy, henergy, Nat.min_comm]
  · rw [hb.totals.cost, hcost, Nat.min_comm]
  · rw [← List.getLast?_map, ← haverage, hb.totals.averagePower, List.getLast?_map]
    cases (cycleBook (p.events steps)).bills.getLast? <;> rfl
  · rw [hv.last, hu.totals]
  · rw [hc.last, hu.totals]
  · rw [hv.rms, hu.voltage_rms]
  · have hrms := hc.rms
    rw [hu.current] at hrms
    calc (p.run steps).2.current
        = ⟨(p.run steps).2.current.rms, (p.run steps).2.current.overruns⟩ := rfl
      _ = _ := by rw [hrms, h.current]
  · rw [hv.loop, hu.loop]
  · rw [hv.clock]
    exact hu.clock
  · exact hv.published
  · exact hc.published
  · exact hv.offset
  · rw [hv.timer, hv.clock, hu.loop]
  · exact hterms

/-- Two meters that differ in their intakes, their plans and stores, their logs and the power
factor they publish at most. -/
structure SameMeter (p q : Pipeline) : Prop where
  voltage : p.voltage = q.voltage
  current : p.current = q.current
  cycle : p.cycle = q.cycle
  timer : p.board.timer = q.board.timer
  totals : { p.board.totals with powerFactor := 0 } = { q.board.totals with powerFactor := 0 }

theorem Metered.same {settings : MeterSettings} {timer : TimerLink} {terms : BillingTerms}
    {samples : List Sample} {p q : Pipeline} (hp : Metered settings timer terms samples p)
    (hq : Metered settings timer terms samples q) : SameMeter p q := by
  have hclock : p.voltage.clock = q.voltage.clock := Except.ok.inj (hp.clock.symm.trans hq.clock)
  have hvoltage : p.voltage = q.voltage := by
    calc p.voltage = ⟨p.voltage.rms, p.voltage.loop, p.voltage.clock⟩ := rfl
      _ = q.voltage := by rw [hp.voltage_rms, hp.loop, hclock, ← hq.voltage_rms, ← hq.loop]
  have hcurrent : p.current = q.current := hp.current_stage.trans hq.current_stage.symm
  refine ⟨hvoltage, hcurrent, ?_, ?_, ?_⟩
  · have hsum : p.cycle.sum = q.cycle.sum :=
      Int64.toInt_inj.mp (hp.pending_sum.trans hq.pending_sum.symm)
    have hcount : p.cycle.count = q.cycle.count :=
      UInt8.toNat_inj.mp (hp.pending.trans hq.pending.symm)
    have hwarned := hp.warned.trans hq.warned.symm
    calc p.cycle = ⟨p.cycle.sum, p.cycle.count, p.cycle.warned⟩ := rfl
      _ = q.cycle := by rw [hsum, hcount, hwarned]
  · rw [hp.timer, hq.timer, hclock]
  · have h1 := UInt32.toNat_inj.mp (hp.averagePower.trans hq.averagePower.symm)
    have h2 := UInt64.toNat_inj.mp (hp.energy.trans hq.energy.symm)
    have h3 := UInt64.toNat_inj.mp (hp.cost.trans hq.cost.symm)
    have h4 := UInt32.toNat_inj.mp (hp.cycles.trans hq.cycles.symm)
    rw [Totals.mk.injEq]
    rw [hp.voltage, hp.current, hp.published_voltage, hp.published_current, hp.frequencyOffset,
      hq.voltage, hq.current, hq.published_voltage, hq.published_current, hq.frequencyOffset, h1,
      h2, h3, h4, hvoltage, hcurrent]
    exact ⟨rfl, rfl, rfl, rfl, rfl, rfl, rfl, rfl, rfl, rfl⟩

/-- The meter after a lossless run is made by the pairs that were read, whatever the schedule.
Any other schedule that reads the same pairs leaves the same meter. -/
theorem schedule_independent {settings : MeterSettings} {p : Pipeline}
    (hp : p.BuiltFrom settings) {steps : List Step} (h : Lossless p steps) :
    Metered settings p.board.timer p.terms (p.pairsRead steps) (p.run steps).2 ∧
      ∀ (q : Pipeline) (others : List Step), q.BuiltFrom settings →
        q.board.timer = p.board.timer → q.terms = p.terms → Lossless q others →
          q.pairsRead others = p.pairsRead steps →
            SameMeter (p.run steps).2 (q.run others).2 := by
  have hm := metered_run hp h
  refine ⟨hm, ?_⟩
  intro q others hq htimer hterms ho hread
  have hn := metered_run hq ho
  rw [htimer, hterms, hread] at hn
  exact hm.same hn

/-- The usual meter with a plan in force. -/
def priced : Pipeline := { usual with active := ⟨some .timeOfUse⟩ }

theorem builtFrom_priced : priced.BuiltFrom {} :=
  ⟨false, usual, rfl, [], ⟨some .timeOfUse⟩, {}, .realTime, 12, rfl⟩

def twentyPairs : Step :=
  .appendScript ((List.range 20).flatMap fun k =>
    [.busy 2, .done (Int16.ofNat (500 * (k % 9)) - 2000), .done (Int16.ofNat (700 * (k % 5)) - 900)])

/-- The queues of the channels fill up before they are drained, and the voltage is behind. -/
def laggingSteps : List Step :=
  twentyPairs :: (List.replicate 5 [.interrupt, .interrupt, .interrupt, .drain .current,
    .drain .cycle, .interrupt, .serve .voltage, .serve .current, .serve .cycle,
    .drain .voltage]).flatten

/-- Each pair is handled before the next is read. -/
def promptSteps : List Step :=
  twentyPairs :: (List.replicate 20 [.interrupt, .serve .voltage, .serve .current,
    .serve .cycle]).flatten

theorem lossless_lagging : Lossless priced laggingSteps :=
  ⟨by decide, by decide +kernel, by decide +kernel, by decide +kernel⟩

theorem lossless_prompt : Lossless priced promptSteps :=
  ⟨by decide, by decide +kernel, by decide +kernel, by decide +kernel⟩

/-- Both schedules leave the same meter but for the power factor: when the cycle closes late,
the voltage channel has not filled its window yet. -/
theorem schedule_independent_lagging :
    (priced.BuiltFrom {} ∧ Lossless priced laggingSteps ∧ Lossless priced promptSteps ∧
        priced.pairsRead promptSteps = priced.pairsRead laggingSteps) ∧
      (Metered {} priced.board.timer priced.terms (priced.pairsRead laggingSteps)
          (priced.run laggingSteps).2 ∧
        SameMeter (priced.run laggingSteps).2 (priced.run promptSteps).2) ∧
      ((priced.run laggingSteps).2.board.totals.powerFactor,
        (priced.run promptSteps).2.board.totals.powerFactor) = (0, 256) := by
  have hread : priced.pairsRead promptSteps = priced.pairsRead laggingSteps := by decide +kernel
  obtain ⟨hm, hsame⟩ := schedule_independent builtFrom_priced lossless_lagging
  exact ⟨⟨builtFrom_priced, lossless_lagging, lossless_prompt, hread⟩,
    ⟨hm, hsame priced promptSteps builtFrom_priced rfl rfl lossless_prompt hread⟩,
    by decide +kernel⟩

end EnergyMeter
