import EnergyMeter.Proofs.Conservation
import EnergyMeter.Proofs.CycleArithmetic

/-!
# The book of cycles

The cycles of a run, read off its events: sixteen samples each, with the terms in force when
the last of them came and the bill that was answered. The totals of the meter are what the
bills in the book add up to, clipped at the largest word. The book is kept for every schedule,
whatever else happens to plan, hour and time scale.
-/
namespace EnergyMeter

/-- A cycle that closed, and the totals around its closing. -/
structure ClosedCycle where
  samples : List Sample
  terms : BillingTerms
  bill : CycleBill
  before : Totals
  after : Totals

/-- The cycles closed so far, in order, and the samples of the one in progress. -/
structure CycleBook where
  closed : List ClosedCycle := []
  pending : List Sample := []

namespace CycleBook

/-- Enters an event: the cycle meter closed a cycle if it answered a bill. -/
def enter (book : CycleBook) : Event → CycleBook
  | .handled meter .cycle sample =>
    let samples := book.pending ++ [sample]
    match (meter.handleCycle sample).1 with
    | none => { book with pending := samples }
    | some bill =>
      let cycle :=
        { samples
          terms := meter.terms
          bill
          before := meter.board.totals
          after := (meter.handleCycle sample).2.board.totals }
      { closed := book.closed ++ [cycle], pending := [] }
  | _ => book

def bills (book : CycleBook) : List CycleBill := book.closed.map (·.bill)

end CycleBook

def cycleBook (es : List Event) : CycleBook := es.foldl CycleBook.enter {}

@[simp] theorem cycleBook_snoc (es : List Event) (e : Event) :
    cycleBook (es ++ [e]) = (cycleBook es).enter e := by
  rw [cycleBook, List.foldl_append]
  rfl

/-- The totals hold what these bills add up to. -/
structure Totals.Hold (totals : Totals) (bills : List CycleBill) : Prop where
  energy : totals.energy.toNat = min (bills.map (·.energy.toNat)).sum (2 ^ 64 - 1)
  cost : totals.cost.toNat = min (bills.map (·.cost.toNat)).sum (2 ^ 64 - 1)
  cycles : totals.cycles.toNat = bills.length % 2 ^ 32
  averagePower : totals.averagePower = (bills.getLast?.map (·.averagePower)).getD 0

@[simp] theorem Totals.toNat_energy_addBill (totals : Totals) (bill : CycleBill) :
    (totals.addBill bill).energy.toNat =
      min (totals.energy.toNat + bill.energy.toNat) (2 ^ 64 - 1) := by
  simp [addBill]

@[simp] theorem Totals.toNat_cost_addBill (totals : Totals) (bill : CycleBill) :
    (totals.addBill bill).cost.toNat =
      min (totals.cost.toNat + bill.cost.toNat) (2 ^ 64 - 1) := by
  simp [addBill]

theorem hold_addBill {totals : Totals} {bills : List CycleBill} (h : totals.Hold bills)
    (bill : CycleBill) : (totals.addBill bill).Hold (bills ++ [bill]) := by
  constructor
  · rw [Totals.toNat_energy_addBill, h.energy, List.map_append, List.sum_append, List.map_singleton,
      List.sum_singleton]
    omega
  · rw [Totals.toNat_cost_addBill, h.cost, List.map_append, List.sum_append, List.map_singleton,
      List.sum_singleton]
    omega
  · show (totals.cycles + 1).toNat = _
    have h1 : (1 : UInt32).toNat = 1 := rfl
    rw [UInt32.toNat_add, h.cycles, List.length_append, List.length_singleton, h1]
    omega
  · show bill.averagePower = _
    rw [List.getLast?_append_of_ne_nil _ (List.cons_ne_nil bill [])]
    rfl

/-- The sixteen samples of a closed cycle are billed exactly, and the bill is added. -/
structure ClosedCycle.Exact (cycle : ClosedCycle) : Prop where
  length : cycle.samples.length = 16
  bill : BilledExactly cycle.samples cycle.terms cycle.bill
  after : cycle.after = cycle.before.addBill cycle.bill

/-- The book agrees with a cycle in progress and with the totals. -/
structure Booked (es : List Event) (p : Pipeline) : Prop where
  short : (cycleBook es).pending.length < 16
  count : p.cycle.count.toNat = (cycleBook es).pending.length
  sum : p.cycle.sum.toInt = productSum (cycleBook es).pending
  warned : p.cycle.warned = (cycleBook es).bills.any (·.rate == 0)
  closed : ∀ cycle ∈ (cycleBook es).closed, cycle.Exact
  samples : (cycleBook es).closed.flatMap (·.samples) ++ (cycleBook es).pending =
    samplesHandled .cycle es
  totals : p.board.totals.Hold (cycleBook es).bills

namespace CycleMeter

theorem add_open {meter : CycleMeter} (h : meter.count.toNat + 1 < 16) (terms : BillingTerms)
    (totals : Totals) (sample : Sample) :
    (meter.add terms totals sample).value =
      { meter := { meter with sum := meter.sum + product sample, count := meter.count + 1 }
        totals
        bill := none } := by
  have hlt : meter.count + 1 < UInt8.ofNat DesignPoint.cycleLength := by
    rw [UInt8.lt_iff_toNat_lt, UInt8.toNat_add]
    show (meter.count.toNat + 1) % 2 ^ 8 < 16
    omega
  unfold add
  rw [if_pos hlt]

/-- The sixteenth sample closes the cycle. -/
theorem add_close {meter : CycleMeter} (h : meter.count.toNat + 1 = 16) (terms : BillingTerms)
    (totals : Totals) (sample : Sample) :
    let bill := CycleBill.close (meter.sum + product sample) terms totals.voltageRms
      totals.currentRms
    (meter.add terms totals sample).value =
      { meter := { sum := 0, count := 0, warned := meter.warned || meter.reports terms.rate }
        totals := totals.addBill bill
        bill := some bill } := by
  have hlt : ¬ meter.count + 1 < UInt8.ofNat DesignPoint.cycleLength := by
    rw [UInt8.lt_iff_toNat_lt, UInt8.toNat_add]
    show ¬ (meter.count.toNat + 1) % 2 ^ 8 < 16
    omega
  unfold add
  rw [if_neg hlt]

end CycleMeter

/-- To report only what was not reported before is to report it at all. -/
theorem reported_once (before now : Bool) : (before || now && !before) = (before || now) := by
  cases before <;> cases now <;> rfl

/-- What no event of the cycle meter touches stays booked. -/
theorem booked_frame {es : List Event} {p q : Pipeline} {e : Event} (h : Booked es p)
    (he : ∀ book : CycleBook, book.enter e = book) (hs : e.handledBy .cycle = [])
    (hc : q.cycle = p.cycle) (ht : q.board.totals.Hold (cycleBook es).bills) :
    Booked (es ++ [e]) q := by
  have hb : cycleBook (es ++ [e]) = cycleBook es := (cycleBook_snoc es e).trans (he _)
  have hh : samplesHandled .cycle (es ++ [e]) = samplesHandled .cycle es := by
    rw [samplesHandled_snoc, hs, List.append_nil]
  constructor <;> rw [hb]
  · exact h.short
  · rw [hc]; exact h.count
  · rw [hc]; exact h.sum
  · rw [hc]; exact h.warned
  · exact h.closed
  · rw [hh]; exact h.samples
  · exact ht

variable {es : List Event} {p : Pipeline}

theorem samplesHandled_cycle (es : List Event) (p : Pipeline) (sample : Sample) :
    samplesHandled .cycle (es ++ [.handled p .cycle sample]) =
      samplesHandled .cycle es ++ [sample] :=
  samplesHandled_snoc _ _ _

theorem booked_open (h : Booked es p) (hopen : p.cycle.count.toNat + 1 < 16) (sample : Sample) :
    Booked (es ++ [.handled p .cycle sample]) (p.handleCycle sample).2 := by
  have ha := CycleMeter.add_open hopen p.terms p.board.totals sample
  have hsum := toInt_add_product h.sum h.short sample
  have hb : cycleBook (es ++ [.handled p .cycle sample]) =
      { cycleBook es with pending := (cycleBook es).pending ++ [sample] } := by
    simp [CycleBook.enter, Pipeline.handleCycle, ha]
  constructor <;> rw [hb]
  · rw [h.count] at hopen
    simpa using hopen
  · simp only [Pipeline.handleCycle, ha, List.length_append, List.length_singleton, ← h.count,
      UInt8.toNat_add]
    exact Nat.mod_eq_of_lt (by change p.cycle.count.toNat + 1 < 256; omega)
  · simpa only [Pipeline.handleCycle, ha] using hsum
  · simp only [Pipeline.handleCycle, ha]
    exact h.warned
  · exact h.closed
  · rw [samplesHandled_cycle, ← h.samples, List.append_assoc]
  · simp only [Pipeline.handleCycle, Board.note, ha]
    exact h.totals

theorem booked_close (h : Booked es p) (hlast : p.cycle.count.toNat + 1 = 16) (sample : Sample) :
    Booked (es ++ [.handled p .cycle sample]) (p.handleCycle sample).2 := by
  have ha := CycleMeter.add_close hlast p.terms p.board.totals sample
  have hsum := toInt_add_product h.sum h.short sample
  have hlen : ((cycleBook es).pending ++ [sample]).length = 16 := by
    rw [List.length_append, List.length_singleton, ← h.count, hlast]
  have hrate : p.terms.rate.toNat ≤ rateBound := rate_le p.active p.hour
  have hexact := billedExactly_close hsum hlen hrate p.board.totals.voltageRms
    p.board.totals.currentRms
  have hb : cycleBook (es ++ [.handled p .cycle sample]) =
      { closed := (cycleBook es).closed ++
          [{ samples := (cycleBook es).pending ++ [sample]
             terms := p.terms
             bill := CycleBill.close (p.cycle.sum + CycleMeter.product sample) p.terms
               p.board.totals.voltageRms p.board.totals.currentRms
             before := p.board.totals
             after := (p.handleCycle sample).2.board.totals }]
        pending := [] } := by
    simp [CycleBook.enter, Pipeline.handleCycle, ha]
  constructor <;> rw [hb]
  · exact Nat.zero_lt_succ 15
  · simp only [Pipeline.handleCycle, ha]
    rfl
  · simp only [Pipeline.handleCycle, ha]
    rfl
  · simp only [Pipeline.handleCycle, ha, CycleBook.bills, List.map_append, List.any_append,
      List.map_singleton, List.any_cons, List.any_nil, Bool.or_false]
    rw [CycleMeter.reports, h.warned]
    exact reported_once _ _
  · intro cycle hm
    rcases List.mem_append.mp hm with hm | hm
    · exact h.closed cycle hm
    · obtain rfl := List.mem_singleton.mp hm
      refine ⟨hlen, hexact, ?_⟩
      simp only [Pipeline.handleCycle, Board.note, ha]
  · rw [samplesHandled_cycle, ← h.samples, List.flatMap_append]
    simp
  · simp only [Pipeline.handleCycle, Board.note, ha, CycleBook.bills, List.map_append]
    exact hold_addBill h.totals _

/-- The cycle meter enters each sample it handles, and its bill when a cycle closes. -/
theorem booked_handleCycle (h : Booked es p) (sample : Sample) :
    Booked (es ++ [.handled p .cycle sample]) (p.handleCycle sample).2 := by
  by_cases hopen : p.cycle.count.toNat + 1 < 16
  · exact booked_open h hopen sample
  · have hcount := h.count
    have hshort := h.short
    exact booked_close h (by omega) sample

end EnergyMeter
