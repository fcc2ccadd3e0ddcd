import EnergyMeter.Proofs.BillingTotals
import EnergyMeter.Proofs.StageHistory

/-!
# The account of a run

Whatever the order of interrupts, servings and new intakes, no sample is lost in silence, handled
twice or out of order. Each consumer has made of the samples that it handled what it makes of them
one by one: the channels have pushed every one of them, and the cycle meter has billed them
sixteen at a time and holds what is left.
-/
namespace EnergyMeter

open Pipeline (usual builtFrom_usual)

/-- The whole cycles of a list of samples, sixteen at a time. -/
def wholeCycles (samples : List Sample) : List (List Sample) :=
  (List.range (samples.length / 16)).map fun k => (samples.drop (16 * k)).take 16

/-- The samples after the last whole cycle. -/
def openCycle (samples : List Sample) : List Sample :=
  samples.drop (16 * (samples.length / 16))

theorem wholeCycles_append {block : List Sample} (hb : block.length = 16) (samples : List Sample) :
    wholeCycles (block ++ samples) = block :: wholeCycles samples := by
  have hl : (block ++ samples).length / 16 = samples.length / 16 + 1 := by
    rw [List.length_append, hb]
    omega
  rw [wholeCycles, hl, List.range_succ_eq_map, List.map_cons, List.map_map, wholeCycles]
  congr 1
  · rw [Nat.mul_zero, List.drop_zero, ← hb, List.take_left]
  · apply List.map_congr_left
    intro k _
    show ((block ++ samples).drop (16 * (k + 1))).take 16 = _
    rw [Nat.mul_add, Nat.mul_one, Nat.add_comm, ← List.drop_drop, ← hb, List.drop_left]

theorem openCycle_append {block : List Sample} (hb : block.length = 16) (samples : List Sample) :
    openCycle (block ++ samples) = openCycle samples := by
  have hl : 16 * ((block ++ samples).length / 16) = block.length + 16 * (samples.length / 16) := by
    rw [List.length_append, hb]
    omega
  rw [openCycle, hl, ← List.drop_drop, List.drop_left, openCycle]

/-- There is one way to cut samples into whole cycles and less than one more. -/
theorem cut_unique {blocks : List (List Sample)} {rest : List Sample}
    (hb : ∀ block ∈ blocks, block.length = 16) (hr : rest.length < 16) :
    blocks = wholeCycles (blocks.flatten ++ rest) ∧
      rest = openCycle (blocks.flatten ++ rest) := by
  induction blocks with
  | nil =>
    have hl : rest.length / 16 = 0 := Nat.div_eq_of_lt hr
    rw [List.flatten_nil, List.nil_append, wholeCycles, openCycle, hl]
    exact ⟨rfl, rfl⟩
  | cons block blocks ih =>
    obtain ⟨hw, ho⟩ := ih fun other hm => hb other (List.mem_cons_of_mem block hm)
    have hblock := hb block List.mem_cons_self
    rw [List.flatten_cons, List.append_assoc, wholeCycles_append hblock, openCycle_append hblock,
      ← hw, ← ho]
    exact ⟨rfl, rfl⟩

/-- The book of a run cuts what the cycle meter handled into whole cycles. -/
theorem Booked.cut {es : List Event} {p : Pipeline} (h : Booked es p) :
    (cycleBook es).closed.map (·.samples) = wholeCycles (samplesHandled .cycle es) ∧
      (cycleBook es).pending = openCycle (samplesHandled .cycle es) := by
  have hblocks : ∀ block ∈ (cycleBook es).closed.map (·.samples), block.length = 16 := by
    intro block hm
    obtain ⟨cycle, hcycle, rfl⟩ := List.mem_map.mp hm
    exact (h.closed cycle hcycle).length
  have hcut := cut_unique hblocks h.short
  rwa [← List.flatMap_def, h.samples] at hcut

theorem Booked.length_bills {es : List Event} {p : Pipeline} (h : Booked es p) :
    (cycleBook es).bills.length = (samplesHandled .cycle es).length / 16 := by
  have hl := congrArg List.length h.cut.1
  rw [List.length_map, wholeCycles, List.length_map, List.length_range] at hl
  rw [CycleBook.bills, List.length_map, hl]

/-- What the consumers hold after a run is made of the samples that they handled in it. -/
structure Held (p : Pipeline) (steps : List Step) : Prop where
  voltage_rms : (p.run steps).2.voltage.rms =
    p.voltage.rms.pushAll ((samplesHandled .voltage (p.events steps)).map (·.voltage))
  loop : (p.run steps).2.voltage.loop =
    p.voltage.loop.observeAll ((samplesHandled .voltage (p.events steps)).map (·.voltage))
  current_rms : (p.run steps).2.current.rms =
    p.current.rms.pushAll ((samplesHandled .current (p.events steps)).map (·.current))
  billed : ((p.run steps).1.flatMap Outcome.bills).map (·.power.toNat) =
    (wholeCycles (samplesHandled .cycle (p.events steps))).map fun block =>
      powerOfSum (productSum block)
  cycles : (p.run steps).2.board.totals.cycles.toNat =
    (samplesHandled .cycle (p.events steps)).length / 16 % 2 ^ 32
  pending : (p.run steps).2.cycle.count.toNat =
    (samplesHandled .cycle (p.events steps)).length % 16
  pending_sum : (p.run steps).2.cycle.sum.toInt =
    productSum (openCycle (samplesHandled .cycle (p.events steps)))

theorem held_run {settings : MeterSettings} {p : Pipeline} (hp : p.BuiltFrom settings)
    (steps : List Step) : Held p steps := by
  have hv := voltageFollowed_run hp.unused steps
  have hc := currentFollowed_run hp.unused steps
  have hb := booked_run hp.unbilled steps
  obtain ⟨hclosed, hpending⟩ := hb.cut
  constructor
  · exact hv.rms
  · exact hv.loop
  · exact hc.rms
  · rw [← bills_events, CycleBook.bills, ← hclosed, List.map_map, List.map_map]
    exact List.map_congr_left fun cycle hm => (hb.closed cycle hm).bill.power
  · rw [hb.totals.cycles, hb.length_bills]
  · rw [hb.count, hpending, openCycle, List.length_drop]
    omega
  · rw [hb.sum, hpending]

/-- The account of a run. What a consumer handled, by the answers of the run, and what waits for
it is what its queue had room for; what was offered is what was read, or what the current
consumer handled; every sample is handled, waits or is lost; what was handled is what the
consumers hold; and the losses are those that were counted, up to the largest word. -/
structure Conserved (p : Pipeline) (steps : List Step) : Prop extends Held p steps where
  bounded : ∀ consumer, ((p.run steps).2.queues.get consumer).length ≤ 4
  handled : ∀ consumer, samplesHandled consumer (p.events steps) =
    (steps.zip (p.run steps).1).flatMap fun answered => handledIn consumer answered.1 answered.2
  in_order : ∀ consumer, samplesHandled consumer (p.events steps) ++
    ((p.run steps).2.queues.get consumer).samples = takenBy consumer (p.events steps)
  offers_voltage :
    (offersTo .voltage (p.events steps)).map Prod.fst = (p.run steps).1.flatMap Outcome.read
  offers_current :
    (offersTo .current (p.events steps)).map Prod.fst = (p.run steps).1.flatMap Outcome.read
  offers_cycle :
    (offersTo .cycle (p.events steps)).map Prod.fst = samplesHandled .current (p.events steps)
  count_voltage : ((p.run steps).1.flatMap Outcome.read).length =
    (samplesHandled .voltage (p.events steps)).length + (p.run steps).2.queues.voltage.length +
      (lostBy .voltage (p.events steps)).length
  count_current : ((p.run steps).1.flatMap Outcome.read).length =
    (samplesHandled .current (p.events steps)).length + (p.run steps).2.queues.current.length +
      (lostBy .current (p.events steps)).length
  count_cycle : (samplesHandled .current (p.events steps)).length =
    (samplesHandled .cycle (p.events steps)).length + (p.run steps).2.queues.cycle.length +
      (lostBy .cycle (p.events steps)).length
  intakes : ∃ losses : List Nat,
    (overrunCounts (p.events steps) (p.run steps).2).map UInt32.toNat =
      losses.map (min · (2 ^ 32 - 1)) ∧
    losses.sum =
      (lostBy .voltage (p.events steps)).length + (lostBy .current (p.events steps)).length
  intakes_exact :
    (∀ count ∈ overrunCounts (p.events steps) (p.run steps).2, count.toNat < 2 ^ 32 - 1) →
    ((overrunCounts (p.events steps) (p.run steps).2).map UInt32.toNat).sum =
      (lostBy .voltage (p.events steps)).length + (lostBy .current (p.events steps)).length
  current_overruns : (p.run steps).2.current.overruns.toNat =
    min (lostBy .cycle (p.events steps)).length (2 ^ 32 - 1)

/-- A count below the largest word is exact. -/
theorem counts_exact {counts : List UInt32} {losses : List Nat}
    (h : counts.map UInt32.toNat = losses.map (min · (2 ^ 32 - 1)))
    (hb : ∀ count ∈ counts, count.toNat < 2 ^ 32 - 1) : counts.map UInt32.toNat = losses := by
  have hid : ∀ n ∈ losses, min n (2 ^ 32 - 1) = n := by
    intro n hn
    have hm : min n (2 ^ 32 - 1) ∈ counts.map UInt32.toNat := by
      rw [h]
      exact List.mem_map_of_mem hn
    obtain ⟨count, hc, he⟩ := List.mem_map.mp hm
    have hlt := hb count hc
    omega
  rw [h]
  exact (List.map_congr_left hid).trans (List.map_id _)

/-- No sample is lost in silence, handled twice or out of order, whatever the order of
interrupts, servings and new intakes. -/
theorem samples_conserved {settings : MeterSettings} {p : Pipeline} (hp : p.BuiltFrom settings)
    {steps : List Step} (hs : ∀ s ∈ steps, s.inService = true) : Conserved p steps := by
  have hb := balanced_run hp hs
  obtain ⟨hv, hc, ha⟩ := map_fst_offersTo (p.events steps)
  obtain ⟨losses, hl, hsum⟩ := hb.losses
  have hread := samplesRead_events p steps
  constructor
  · exact held_run hp steps
  · exact hb.bounded
  · exact fun consumer => samplesHandled_events consumer p steps
  · exact hb.in_order
  · rw [hv, hread]
  · rw [hc, hread]
  · exact ha
  · rw [← hread, ← hv, List.length_map]
    exact hb.length_offersTo .voltage
  · rw [← hread, ← hc, List.length_map]
    exact hb.length_offersTo .current
  · rw [← ha, List.length_map]
    exact hb.length_offersTo .cycle
  · exact ⟨losses, hl, hsum⟩
  · intro hlt
    rw [counts_exact hl hlt, hsum]
  · exact hb.current

/-- Six pairs for three queues that nobody serves, a new intake in between, and a cycle meter
that is served too late. -/
def lateSteps : List Step :=
  [.appendScript ((List.range 12).map fun k => .done (Int16.ofNat k)), .interrupt, .interrupt,
    .interrupt, .interrupt, .interrupt, .restart, .interrupt, .drain .current, .interrupt,
    .interrupt, .serve .current, .drain .voltage, .serve .cycle, .serve .current]

theorem samples_conserved_late :
    (usual.BuiltFrom {} ∧ (∀ s ∈ lateSteps, s.inService = true)) ∧
      (lostBy .voltage (usual.events lateSteps)).length = 4 ∧
      (lostBy .cycle (usual.events lateSteps)).length = 1 ∧ Conserved usual lateSteps :=
  ⟨⟨builtFrom_usual, by decide⟩, by decide +kernel, by decide +kernel,
    samples_conserved builtFrom_usual (by decide)⟩

end EnergyMeter
