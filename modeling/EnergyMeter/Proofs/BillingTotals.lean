import EnergyMeter.Proofs.CycleBook

/-!
# What a run is billed

Samples, plan, hour, time scale and store may change at any point of a run, also inside a
cycle. Energy and cost are nevertheless the clipped sums of what the closed cycles were
billed, they never decrease, and the customer is never overcharged: each cycle rounds its
cost down, by less than the rate allows.
-/
namespace EnergyMeter

open Pipeline (usual builtFrom_usual)

/-- No cycle has been metered yet. -/
structure Pipeline.Unbilled (p : Pipeline) : Prop where
  cycle : p.cycle = {}
  energy : p.board.totals.energy = 0
  cost : p.board.totals.cost = 0
  cycles : p.board.totals.cycles = 0
  averagePower : p.board.totals.averagePower = 0

theorem Pipeline.BuiltFrom.unbilled {settings : MeterSettings} {p : Pipeline}
    (h : p.BuiltFrom settings) : p.Unbilled := by
  have hu := h.unused
  constructor
  · exact hu.cycle
  · rw [hu.totals]
  · rw [hu.totals]
  · rw [hu.totals]
  · rw [hu.totals]

theorem booked_unbilled {p : Pipeline} (h : p.Unbilled) : Booked [] p := by
  constructor
  · exact Nat.zero_lt_succ 15
  · rw [h.cycle]; rfl
  · rw [h.cycle]; rfl
  · rw [h.cycle]; rfl
  · intro cycle hm
    cases hm
  · rfl
  · constructor
    · rw [h.energy]; rfl
    · rw [h.cost]; rfl
    · rw [h.cycles]; rfl
    · rw [h.averagePower]; rfl

/-- Whoever changes none of the four totals of the bills leaves them as they are. -/
theorem hold_of_eq {totals changed : Totals} {bills : List CycleBill} (h : totals.Hold bills)
    (he : changed.energy = totals.energy) (hc : changed.cost = totals.cost)
    (hn : changed.cycles = totals.cycles) (hp : changed.averagePower = totals.averagePower) :
    changed.Hold bills := by
  constructor
  · rw [he]; exact h.energy
  · rw [hc]; exact h.cost
  · rw [hn]; exact h.cycles
  · rw [hp]; exact h.averagePower

theorem booked_handle {es : List Event} {p : Pipeline} (h : Booked es p) (consumer : Consumer)
    (sample : Sample) :
    Booked (es ++ [.handled p consumer sample]) (p.handle consumer sample).2 := by
  cases consumer with
  | voltage =>
    have ht : (p.handleVoltage sample.voltage).board.totals.Hold (cycleBook es).bills := by
      rw [p.handleVoltage_totals]
      exact hold_of_eq h.totals rfl rfl rfl rfl
    exact booked_frame h (fun _ => rfl) rfl rfl ht
  | current =>
    have ht : (p.handleCurrent sample).board.totals.Hold (cycleBook es).bills := by
      rw [p.handleCurrent_totals]
      exact hold_of_eq h.totals rfl rfl rfl rfl
    have hc : (p.handleCurrent sample).cycle = p.cycle := rfl
    exact booked_frame h (fun _ => rfl) rfl hc ht
  | cycle => exact booked_handleCycle h sample

/-- The queues are no part of the book. -/
theorem booked_queues {es : List Event} {p : Pipeline} (h : Booked es p) (queues : SampleQueues) :
    Booked es { p with queues } :=
  ⟨h.short, h.count, h.sum, h.warned, h.closed, h.samples, h.totals⟩

theorem booked_kept : Kept (fun _ => True) Booked := by
  apply kept_of_events
  · intro s hs es p h
    have hw := sameWork_setting hs p
    constructor
    · exact h.short
    · rw [hw.cycle]; exact h.count
    · rw [hw.cycle]; exact h.sum
    · rw [hw.cycle]; exact h.warned
    · exact h.closed
    · exact h.samples
    · rw [hw.totals]; exact h.totals
  · exact fun es p queues h => booked_queues h queues
  · intro es e h
    cases e with
    | interrupted meter => exact booked_frame h (fun _ => rfl) rfl rfl h.totals
    | restarted meter => exact booked_frame h (fun _ => rfl) rfl rfl h.totals
    | handled meter consumer sample => exact booked_handle h consumer sample

theorem booked_run {p : Pipeline} (h : p.Unbilled) (steps : List Step) :
    Booked (p.events steps) (p.run steps).2 :=
  booked_kept.run (fun _ _ => trivial) (booked_unbilled h)

def Event.bills : Event → List CycleBill
  | .handled meter consumer sample => (meter.handle consumer sample).1.toList
  | _ => []

def Served.bills : Served → List CycleBill
  | .idle => []
  | .handled _ bill => bill.toList

/-- The bills that a step answered. -/
def Outcome.bills : Outcome → List CycleBill
  | .served answer => answer.bills
  | .drained answers => answers.flatMap Served.bills
  | .handed bill => bill.toList
  | _ => []

@[simp] theorem bills_enter (book : CycleBook) (e : Event) :
    (book.enter e).bills = book.bills ++ e.bills := by
  cases e with
  | interrupted meter => exact (List.append_nil _).symm
  | restarted meter => exact (List.append_nil _).symm
  | handled meter consumer sample =>
    cases consumer with
    | voltage => exact (List.append_nil _).symm
    | current => exact (List.append_nil _).symm
    | cycle =>
      simp only [CycleBook.enter, Event.bills, Pipeline.handle]
      cases (meter.handleCycle sample).1 with
      | none => exact (List.append_nil _).symm
      | some bill => exact List.map_append

theorem bills_cycleBook (es : List Event) : (cycleBook es).bills = es.flatMap Event.bills := by
  induction es using List.reverseRecOn with
  | nil => rfl
  | append_singleton es e ih =>
    simp [ih]

theorem bills_serve (p : Pipeline) (consumer : Consumer) :
    (p.serveEvents consumer).flatMap Event.bills = (p.serve consumer).1.bills := by
  unfold Pipeline.serveEvents Pipeline.serve
  cases p.queues.receive? consumer with
  | none => rfl
  | some taken => exact List.append_nil _

/-- The bills in the book of a run are those that its steps answered. -/
theorem bills_events (p : Pipeline) (steps : List Step) :
    (cycleBook (p.events steps)).bills = (p.run steps).1.flatMap Outcome.bills := by
  rw [bills_cycleBook]
  apply Pipeline.flatMap_events
  intro p s
  cases s with
  | serve consumer => exact bills_serve p consumer
  | drain consumer =>
    exact Pipeline.flatMap_serveTimesEvents (fun p => bills_serve p consumer) _ p
  | hand consumer sample => exact List.append_nil _
  | interrupt | restart | send | receive => rfl
  | appendScript | setHour | setScale | setTestMode | loadPlan | selectPlan | changeStore => rfl

theorem Totals.Hold.le {totals later : Totals} {bills more : List CycleBill}
    (h : totals.Hold bills) (h' : later.Hold (bills ++ more)) :
    totals.energy ≤ later.energy ∧ totals.cost ≤ later.cost := by
  have he := h'.energy
  have hc := h'.cost
  rw [List.map_append, List.sum_append] at he hc
  constructor
  · rw [UInt64.le_iff_toNat_le, h.energy, he]
    omega
  · rw [UInt64.le_iff_toNat_le, h.cost, hc]
    omega

theorem totals_le_later {p : Pipeline} (h : p.Unbilled) (steps more : List Step) :
    (p.run steps).2.board.totals.energy ≤ (p.run (steps ++ more)).2.board.totals.energy ∧
      (p.run steps).2.board.totals.cost ≤ (p.run (steps ++ more)).2.board.totals.cost := by
  have hb := (booked_run h steps).totals
  have hl := (booked_run h (steps ++ more)).totals
  rw [bills_cycleBook] at hb hl
  rw [Pipeline.events_append, List.flatMap_append] at hl
  exact hb.le hl

theorem toNat_wattHours (totals : Totals) :
    totals.wattHours.toNat = totals.energy.toNat / (3600 * 2 ^ 32) := by
  have hs : Totals.secondsInHour.toUInt64.toNat = 3600 := rfl
  simp only [Totals.wattHours, UInt64.toNat_shiftRight, UInt64.toNat_div, hs,
    UInt64.reduceToNat, Nat.shiftRight_eq_div_pow, Nat.div_div_eq_div_mul]
  norm_num

theorem toNat_cents (totals : Totals) : totals.cents.toNat = totals.cost.toNat / 2 ^ 32 := by
  simp [Totals.cents, Nat.shiftRight_eq_div_pow]

theorem wattHours_le {totals later : Totals} (h : totals.energy ≤ later.energy) :
    totals.wattHours ≤ later.wattHours := by
  rw [UInt64.le_iff_toNat_le, toNat_wattHours, toNat_wattHours]
  exact Nat.div_le_div_right (UInt64.le_iff_toNat_le.mp h)

theorem cents_le {totals later : Totals} (h : totals.cost ≤ later.cost) :
    totals.cents ≤ later.cents := by
  rw [UInt64.le_iff_toNat_le, toNat_cents, toNat_cents]
  exact Nat.div_le_div_right (UInt64.le_iff_toNat_le.mp h)

namespace ClosedCycle

/-- What the cycle would cost without rounding, in 2^32nds of a cent. -/
def exactCost (cycle : ClosedCycle) : ℚ :=
  cycle.bill.energy.toNat * cycle.bill.rate.toNat / (3600000 * 2 ^ 16)

/-- More than what a cycle can be undercharged by. -/
def slack (cycle : ClosedCycle) : ℚ := 1 + cycle.bill.rate.toNat / 3600000

variable {cycle : ClosedCycle}

theorem Exact.rounding (h : cycle.Exact) :
    cycle.bill.cost.toNat * (3600000 * 2 ^ 16) ≤
        cycle.bill.energy.toNat * cycle.bill.rate.toNat ∧
      cycle.bill.energy.toNat * cycle.bill.rate.toNat <
        cycle.bill.cost.toNat * (3600000 * 2 ^ 16) +
          (3600000 + cycle.bill.rate.toNat) * 2 ^ 16 := by
  have hr := cost_rounding cycle.bill.energy.toNat cycle.bill.rate.toNat
  rw [h.bill.cost, ← h.bill.rate]
  exact hr

theorem Exact.cost_le (h : cycle.Exact) : (cycle.bill.cost.toNat : ℚ) ≤ cycle.exactCost := by
  have hle := h.rounding.1
  unfold exactCost
  rw [le_div_iff₀ (by norm_num)]
  exact_mod_cast hle

theorem Exact.exactCost_le (h : cycle.Exact) :
    cycle.exactCost ≤ cycle.bill.cost.toNat + cycle.slack := by
  have hlt : (cycle.bill.energy.toNat * cycle.bill.rate.toNat : ℚ) <
      cycle.bill.cost.toNat * (3600000 * 2 ^ 16) +
        (3600000 + cycle.bill.rate.toNat) * 2 ^ 16 := by
    exact_mod_cast h.rounding.2
  unfold exactCost slack
  rw [div_le_iff₀ (by norm_num)]
  linarith

/-- A cycle of next to no power, or of power that flows back, is billed nothing. -/
theorem Exact.idle (h : cycle.Exact) (hs : productSum cycle.samples < 82) :
    cycle.after.energy = cycle.before.energy ∧ cycle.after.cost = cycle.before.cost := by
  have hp : cycle.bill.power.toNat = 0 := by
    rw [h.bill.power, powerOfSum]
    omega
  have he : cycle.bill.energy.toNat = 0 := by
    rw [h.bill.energy, hp, Nat.zero_mul]
  have hc : cycle.bill.cost.toNat = 0 := by
    rw [h.bill.cost, he, Nat.zero_div, Nat.zero_mul, Nat.zero_div]
  have hbe := cycle.before.energy.toNat_lt
  have hbc := cycle.before.cost.toNat_lt
  rw [h.after]
  constructor
  · apply UInt64.toNat_inj.mp
    rw [Totals.toNat_energy_addBill, he]
    omega
  · apply UInt64.toNat_inj.mp
    rw [Totals.toNat_cost_addBill, hc]
    omega

end ClosedCycle

/-- Together the cycles are not overcharged, and undercharged by their slacks at most. -/
theorem sum_cost_bounds {cycles : List ClosedCycle} (h : ∀ cycle ∈ cycles, cycle.Exact) :
    ((cycles.map (·.bill.cost.toNat)).sum : ℕ) ≤ (cycles.map (·.exactCost)).sum ∧
      (cycles.map (·.exactCost)).sum ≤
        ((cycles.map (·.bill.cost.toNat)).sum : ℕ) + (cycles.map (·.slack)).sum := by
  induction cycles with
  | nil => simp
  | cons cycle rest ih =>
    obtain ⟨hlo, hhi⟩ := ih fun other hm => h other (List.mem_cons_of_mem cycle hm)
    have hcycle := h cycle List.mem_cons_self
    have hle := hcycle.cost_le
    have hge := hcycle.exactCost_le
    simp only [List.map_cons, List.sum_cons, Nat.cast_add]
    constructor <;> linarith

namespace Pipeline

/-- The cycles that a schedule closes, in order. -/
def closedCycles (p : Pipeline) (steps : List Step) : List ClosedCycle :=
  (cycleBook (p.events steps)).closed

/-- What the meter publishes after a schedule. -/
def totalsAfter (p : Pipeline) (steps : List Step) : Totals := (p.run steps).2.board.totals

end Pipeline

/-- What a schedule is billed. Each cycle is billed in exact integers, on the terms in force
when it closed; energy and cost are the clipped sums of the bills that were answered. -/
structure Billed (p : Pipeline) (steps : List Step) : Prop where
  answered :
    (p.closedCycles steps).map (·.bill) = (p.run steps).1.flatMap Outcome.bills
  exactly : ∀ cycle ∈ p.closedCycles steps, cycle.Exact
  in_order : ∃ rest : List Sample, rest.length < 16 ∧
    (p.closedCycles steps).flatMap (·.samples) ++ rest = samplesHandled .cycle (p.events steps)
  energy : (p.totalsAfter steps).energy.toNat =
    min (2 ^ 64 - 1) ((p.closedCycles steps).map (·.bill.energy.toNat)).sum
  cost : (p.totalsAfter steps).cost.toNat =
    min (2 ^ 64 - 1) ((p.closedCycles steps).map (·.bill.cost.toNat)).sum
  energy_grows : ∀ more,
    (p.totalsAfter steps).energy ≤ (p.totalsAfter (steps ++ more)).energy
  cost_grows : ∀ more, (p.totalsAfter steps).cost ≤ (p.totalsAfter (steps ++ more)).cost
  idle : ∀ cycle ∈ p.closedCycles steps, productSum cycle.samples < 82 →
    cycle.after.energy = cycle.before.energy ∧ cycle.after.cost = cycle.before.cost
  rounding : ∀ cycle ∈ p.closedCycles steps,
    (0 : Int) ≤ cycle.bill.energy.toNat * cycle.bill.rate.toNat -
        cycle.bill.cost.toNat * 3600000 * 2 ^ 16 ∧
      (cycle.bill.energy.toNat * cycle.bill.rate.toNat -
        cycle.bill.cost.toNat * 3600000 * 2 ^ 16 : Int) <
          (3600000 + cycle.bill.rate.toNat) * 2 ^ 16
  not_overcharged : ((p.totalsAfter steps).cost.toNat : ℚ) ≤
    ((p.closedCycles steps).map (·.exactCost)).sum
  undercharged_by : ((p.closedCycles steps).map (·.bill.cost.toNat)).sum ≤ 2 ^ 64 - 1 →
    ((p.closedCycles steps).map (·.exactCost)).sum - ((p.totalsAfter steps).cost.toNat : ℚ) ≤
      ((p.closedCycles steps).map (·.slack)).sum
  wattHours : (p.totalsAfter steps).wattHours.toNat =
    (p.totalsAfter steps).energy.toNat / (3600 * 2 ^ 32)
  wattHours_grow : ∀ more,
    (p.totalsAfter steps).wattHours ≤ (p.totalsAfter (steps ++ more)).wattHours
  cents_grow : ∀ more, (p.totalsAfter steps).cents ≤ (p.totalsAfter (steps ++ more)).cents

/-- Whatever happens to samples, plan, hour and time scale, the totals are the clipped sums of
what the closed cycles were billed, and no rounding is at the cost of the customer. -/
theorem run_billed {p : Pipeline} (h : p.Unbilled) (steps : List Step) : Billed p steps := by
  have hb := booked_run h steps
  have hexact : ∀ cycle ∈ p.closedCycles steps, cycle.Exact := hb.closed
  have hcost : (p.totalsAfter steps).cost.toNat =
      min ((p.closedCycles steps).map (·.bill.cost.toNat)).sum (2 ^ 64 - 1) := by
    have hc := hb.totals.cost
    rw [CycleBook.bills, List.map_map] at hc
    exact hc
  have henergy : (p.totalsAfter steps).energy.toNat =
      min ((p.closedCycles steps).map (·.bill.energy.toNat)).sum (2 ^ 64 - 1) := by
    have he := hb.totals.energy
    rw [CycleBook.bills, List.map_map] at he
    exact he
  obtain ⟨hlo, hhi⟩ := sum_cost_bounds hexact
  constructor
  · exact bills_events p steps
  · exact hexact
  · exact ⟨_, hb.short, hb.samples⟩
  · rw [henergy, Nat.min_comm]
  · rw [hcost, Nat.min_comm]
  · exact fun more => (totals_le_later h steps more).1
  · exact fun more => (totals_le_later h steps more).2
  · exact fun cycle hm hs => (hexact cycle hm).idle hs
  · intro cycle hm
    obtain ⟨hle, hlt⟩ := (hexact cycle hm).rounding
    constructor
    · zify at hle
      linarith
    · zify at hlt
      linarith
  · have hmin : ((p.totalsAfter steps).cost.toNat : ℚ) ≤
        ((p.closedCycles steps).map (·.bill.cost.toNat)).sum := by
      rw [hcost]
      exact Nat.cast_le.mpr (Nat.min_le_left _ _)
    exact hmin.trans hlo
  · intro hfit
    rw [hcost, Nat.min_eq_left hfit]
    linarith
  · exact toNat_wattHours _
  · exact fun more => wattHours_le (totals_le_later h steps more).1
  · exact fun more => cents_le (totals_le_later h steps more).2

def handOver (n : Nat) (sample : Sample) : List Step := List.replicate n (.hand .cycle sample)

/-- Three cycles: rate and scale change inside the first, in the second power flows back, and
the third is billed on the old plan since the new one cannot be stored. -/
def changingSteps : List Step :=
  List.flatten [[.loadPlan], handOver 8 ⟨1000, 800⟩,
    [.setHour 15, .selectPlan 9, .setScale 100000], handOver 8 ⟨2000, 800⟩,
    handOver 16 ⟨-1000, 800⟩,
    [.setTestMode true, .changeStore { failWrite := true }, .selectPlan 2, .setHour 3],
    handOver 17 ⟨32767, 32767⟩]

theorem run_billed_changing :
    usual.Unbilled ∧
      (usual.closedCycles changingSteps).map
          (fun cycle => (cycle.bill.rate, cycle.bill.energy, cycle.bill.cost)) =
        [(1457193, 11707300000, 72308), (1457193, 0, 0),
          (138215, 3089170936627200, 1809733755)] ∧
      Billed usual changingSteps :=
  ⟨builtFrom_usual.unbilled, by decide +kernel, run_billed builtFrom_usual.unbilled _⟩

end EnergyMeter
