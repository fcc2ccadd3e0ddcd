import EnergyMeter.Proofs.Construction
import EnergyMeter.Proofs.Events

/-!
# The plan in force and the stored plan

A plan comes into force only after its byte is in the store. Reads and writes may fail at any
moment of any history; as long as nobody else writes the byte, the store holds the byte of the
plan in force, so a meter that is restarted loads the plan that was last in force.
-/
namespace EnergyMeter

open Pipeline (usual)

/-- A request about the plan. -/
inductive PlanRequest where
  | load
  | select (byte : UInt8)

namespace PlanRequest

def step : PlanRequest → Step
  | load => .loadPlan
  | select byte => .selectPlan byte

def ask (request : PlanRequest) (active : ActivePlan) (store : PlanStore) : PlanAnswer :=
  match request with
  | load => (active.load store).value
  | select byte => (active.select store byte).value

end PlanRequest

/-- The store holds the byte of the plan in force. -/
def Agrees (active : ActivePlan) (store : PlanStore) : Prop :=
  ∀ plan, active.plan = some plan → store.byte = plan.byte

theorem ofByte_eq_ok {byte : UInt8} {plan : Plan} :
    Plan.ofByte byte = .ok plan ↔ byte = plan.byte := by
  constructor
  · intro h
    unfold Plan.ofByte at h
    split at h
    · next hb => cases h; exact hb
    split at h
    · next hb => cases h; exact hb
    split at h
    · next hb => cases h; exact hb
    · cases h
  · rintro rfl
    exact Plan.ofByte_byte plan

/-- A write is tried once. It succeeds and the byte is the plan's, or the byte stays. -/
theorem writeTo_value (plan : Plan) (store : PlanStore) :
    (plan.writeTo store).value =
        (.error .storage, { store with writes := store.writes + 1 }) ∨
      (plan.writeTo store).value =
        (.ok (), { store with byte := plan.byte, writes := store.writes + 1 }) := by
  unfold Plan.writeTo PlanStore.write
  by_cases hw : store.failWrite = true
  · exact .inl (by simp [hw])
  · exact .inr (by simp [hw])

/-- What a request does. Refused, it changes neither the plan nor the byte; granted, both are
the plan's that it answers. -/
structure PlanAnswer.Sound (active : ActivePlan) (store : PlanStore) (answer : PlanAnswer) :
    Prop where
  refused : ∀ fault, answer.result = .error fault →
    answer.active = active ∧ answer.store.byte = store.byte
  granted : ∀ plan, answer.result = .ok plan →
    answer.active.plan = some plan ∧ answer.store.byte = plan.byte
  one_write : answer.store.writes ≤ store.writes + 1

section

variable {active : ActivePlan} {store : PlanStore} {answer : PlanAnswer}

theorem sound_error {fault : Fault} (hr : answer.result = .error fault)
    (ha : answer.active = active) (hb : answer.store.byte = store.byte)
    (hw : answer.store.writes ≤ store.writes + 1) : answer.Sound active store := by
  constructor
  · intro _ _
    exact ⟨ha, hb⟩
  · intro plan h
    cases hr.symm.trans h
  · exact hw

theorem sound_ok {plan : Plan} (hr : answer.result = .ok plan)
    (ha : answer.active.plan = some plan) (hb : answer.store.byte = plan.byte)
    (hw : answer.store.writes ≤ store.writes + 1) : answer.Sound active store := by
  constructor
  · intro fault h
    cases hr.symm.trans h
  · intro other h
    obtain rfl : plan = other := Except.ok.inj (hr.symm.trans h)
    exact ⟨ha, hb⟩
  · exact hw

theorem load_sound (active : ActivePlan) (store : PlanStore) :
    (active.load store).value.Sound active store := by
  unfold ActivePlan.load PlanStore.read
  by_cases hf : store.failRead = true
  · rw [if_pos hf]
    exact sound_error rfl rfl rfl (Nat.le_succ _)
  · rw [if_neg hf]
    cases hb : Plan.ofByte store.byte with
    | ok plan =>
      simp only [hb]
      exact sound_ok rfl rfl (ofByte_eq_ok.mp hb) (Nat.le_succ _)
    | error fault =>
      rcases writeTo_value .timeOfUse { store with reads := store.reads + 1 } with hw | hw
      · simp only [hb, hw]
        exact sound_error rfl rfl rfl (Nat.le_refl _)
      · simp only [hb, hw]
        exact sound_ok rfl rfl rfl (Nat.le_refl _)

theorem select_sound (ha : Agrees active store) (byte : UInt8) :
    (active.select store byte).value.Sound active store := by
  unfold ActivePlan.select
  cases hb : Plan.ofByte byte with
  | error fault => exact sound_error rfl rfl rfl (Nat.le_succ _)
  | ok plan =>
    by_cases hp : active.plan = some plan
    · simp only [hp, if_true]
      exact sound_ok rfl hp (ha plan hp) (Nat.le_succ _)
    · simp only [hp, if_false]
      rcases writeTo_value plan store with hw | hw
      · simp only [hw]
        exact sound_error rfl rfl rfl (Nat.le_refl _)
      · simp only [hw]
        exact sound_ok rfl rfl rfl (Nat.le_refl _)

end

theorem ask_sound {active : ActivePlan} {store : PlanStore} (ha : Agrees active store)
    (request : PlanRequest) :
    (request.ask active store).Sound active store := by
  cases request with
  | load => exact load_sound active store
  | select byte => exact select_sound ha byte

/-- Selecting the plan in force asks nothing of the store. -/
theorem select_in_force {active : ActivePlan} {plan : Plan} (h : active.plan = some plan)
    (store : PlanStore) :
    active.select store plan.byte = { value := ⟨.ok plan, active, store⟩ } := by
  simp [ActivePlan.select, Plan.ofByte_byte, h]

/-- Loading the byte of a plan loads that plan and writes nothing, if it can be read. -/
theorem load_byte {store : PlanStore} {plan : Plan} (h : store.byte = plan.byte)
    (active : ActivePlan) :
    (active.load store).value =
      { result := if store.failRead then .error .storage else .ok plan
        active := if store.failRead then active else ⟨some plan⟩
        store := { store with reads := store.reads + 1 } } := by
  have hb : Plan.ofByte store.byte = .ok plan := ofByte_eq_ok.mpr h
  unfold ActivePlan.load PlanStore.read
  by_cases hf : store.failRead = true
  · simp [hf]
  · simp [hf, hb]

namespace PlanAnswer.Sound

variable {active : ActivePlan} {store : PlanStore} {answer : PlanAnswer}

theorem agrees (h : Sound active store answer) (ha : Agrees active store) :
    Agrees answer.active answer.store := by
  intro plan hp
  cases hr : answer.result with
  | error fault =>
    obtain ⟨hactive, hbyte⟩ := h.refused fault hr
    rw [hactive] at hp
    rw [hbyte, ha plan hp]
  | ok granted =>
    obtain ⟨hactive, hbyte⟩ := h.granted granted hr
    obtain rfl : granted = plan := Option.some.inj (hactive.symm.trans hp)
    exact hbyte

theorem still_some (h : Sound active store answer) (hs : active.plan ≠ none) :
    answer.active.plan ≠ none := by
  cases hr : answer.result with
  | error fault => rwa [(h.refused fault hr).1]
  | ok granted => simp [(h.granted granted hr).1]

end PlanAnswer.Sound

/-- Only requests and changes of the store bear on the plan and its byte. -/
theorem kept_of_answers {Allowed : Step → Prop} {P : ActivePlan → PlanStore → Prop}
    (hask : ∀ request active store, P active store →
      P (PlanRequest.ask request active store).active (request.ask active store).store)
    (hchange : ∀ change, Allowed (.changeStore change) → ∀ active store, P active store →
      P active (store.change change)) :
    Kept Allowed fun _ p => P p.active p.store where
  setting s hs ha _ p h := by
    cases s with
    | loadPlan => exact hask .load p.active p.store h
    | selectPlan byte => exact hask (.select byte) p.active p.store h
    | changeStore change => exact hchange change ha p.active p.store h
    | appendScript | setHour | setScale | setTestMode => exact h
    | interrupt | restart | serve | drain | hand | send | receive => cases hs
  interrupt _ _ h := h
  restart _ _ _ h := h
  serve consumer _ _ _ _ _ h := by cases consumer <;> exact h
  hand consumer _ _ _ _ h := by cases consumer <;> exact h
  send _ _ _ _ _ _ _ h := h
  receive _ _ _ _ _ _ _ h := h

/-- Nothing but the meter writes the byte. -/
def Step.leavesByte : Step → Bool
  | .changeStore change => change.byte.isNone
  | _ => true

theorem change_byte {change : StoreChange} (h : change.byte = none) (store : PlanStore) :
    (store.change change).byte = store.byte := by
  simp [PlanStore.change, h]

theorem agrees_kept :
    Kept (fun s => s.leavesByte = true) fun _ p => Agrees p.active p.store := by
  apply kept_of_answers
  · intro request active store ha
    exact (ask_sound ha request).agrees ha
  · intro change hc active store ha plan hp
    rw [change_byte (Option.isNone_iff_eq_none.mp hc), ha plan hp]

theorem some_kept : Kept (fun s => s.leavesByte = true) fun _ p =>
    Agrees p.active p.store ∧ p.active.plan ≠ none := by
  apply kept_of_answers (P := fun active store => Agrees active store ∧ active.plan ≠ none)
  · intro request active store ⟨ha, hs⟩
    have hsound := ask_sound ha request
    exact ⟨hsound.agrees ha, hsound.still_some hs⟩
  · intro change hc active store ⟨ha, hs⟩
    refine ⟨fun plan hp => ?_, hs⟩
    rw [change_byte (Option.isNone_iff_eq_none.mp hc), ha plan hp]

theorem step_request (p : Pipeline) (request : PlanRequest) :
    (p.step request.step).1 = .planned (request.ask p.active p.store).result ∧
      (p.step request.step).2.active = (request.ask p.active p.store).active ∧
      (p.step request.step).2.store = (request.ask p.active p.store).store := by
  cases request <;> exact ⟨rfl, rfl, rfl⟩

@[simp] theorem note_nil (p : Pipeline) : p.note [] = p := by
  simp [Pipeline.note, Board.note]

/-- The plan of a meter is safe: it is the stored one, and so it stays whatever is requested
next. A new meter on the same store, whichever of its accesses fail from now on, loads no other
plan and has nothing to write. -/
structure PlanSafe (p : Pipeline) : Prop where
  agrees : ∀ plan, p.active.plan = some plan → p.store.byte = plan.byte
  refused : ∀ (request : PlanRequest) fault,
    (p.step request.step).1 = .planned (.error fault) →
      (p.step request.step).2.active = p.active ∧
        (p.step request.step).2.store.byte = p.store.byte
  granted : ∀ (request : PlanRequest) plan,
    (p.step request.step).1 = .planned (.ok plan) →
      (p.step request.step).2.active.plan = some plan ∧
        (p.step request.step).2.store.byte = plan.byte
  one_write : ∀ request : PlanRequest,
    (p.step request.step).2.store.writes ≤ p.store.writes + 1
  in_force : ∀ plan, p.active.plan = some plan →
    p.step (.selectPlan plan.byte) = (.planned (.ok plan), p)
  never_none : ∀ more : List Step, (∀ s ∈ more, s.leavesByte = true) →
    p.active.plan ≠ none → (p.run more).2.active.plan ≠ none
  reloaded : ∀ plan, p.active.plan = some plan →
    ∀ change : StoreChange, change.byte = none →
      let store := p.store.change change
      let answer := (({} : ActivePlan).load store).value
      (∀ got, answer.result = .ok got → got = plan ∧ answer.active.plan = some plan) ∧
        (store.failRead = false → answer.result = .ok plan) ∧
        answer.store.writes = p.store.writes ∧ answer.store.byte = p.store.byte

theorem planSafe_of_agrees {p : Pipeline} (h : Agrees p.active p.store) : PlanSafe p := by
  constructor
  · exact h
  · intro request fault hr
    obtain ⟨ho, ha, hs⟩ := step_request p request
    rw [ha, hs]
    exact (ask_sound h request).refused fault (Outcome.planned.inj (ho.symm.trans hr))
  · intro request plan hr
    obtain ⟨ho, ha, hs⟩ := step_request p request
    rw [ha, hs]
    exact (ask_sound h request).granted plan (Outcome.planned.inj (ho.symm.trans hr))
  · intro request
    rw [(step_request p request).2.2]
    exact (ask_sound h request).one_write
  · intro plan hp
    simp only [Pipeline.step, Pipeline.selectPlan, Pipeline.settle, select_in_force hp, note_nil]
    rfl
  · intro more hm hp
    exact (some_kept.run hm ⟨h, hp⟩).2
  · intro plan hp change hc store answer
    have hb : store.byte = p.store.byte := change_byte hc p.store
    have hanswer := load_byte (hb.trans (h plan hp)) {}
    change answer = _ at hanswer
    rw [hanswer]
    refine ⟨?_, ?_, rfl, hb⟩
    · intro got hg
      by_cases hf : store.failRead = true
      · simp [hf] at hg
      · simp only [hf, Bool.false_eq_true, if_false] at hg ⊢
        exact ⟨(Except.ok.inj hg).symm, trivial⟩
    · intro hf
      simp [hf]

/-- Whatever fails and in whatever order plans are loaded and selected, the plan in force is
the stored one as long as nobody else writes the byte. -/
theorem plan_stored {p : Pipeline} (hp : p.active.plan = none) {steps : List Step}
    (hs : ∀ s ∈ steps, s.leavesByte = true) : PlanSafe (p.run steps).2 := by
  have hstart : Agrees p.active p.store := by
    intro plan h
    cases hp.symm.trans h
  exact planSafe_of_agrees (agrees_kept.run hs hstart)

/-- A byte that is no plan's is repaired at the second try, a new plan is stored at the second
try, and the read that fails in the end changes nothing. -/
def failingSteps : List Step :=
  [.changeStore { failWrite := true }, .loadPlan, .changeStore { failWrite := false }, .loadPlan,
    .changeStore { failWrite := true }, .selectPlan 3, .selectPlan 1,
    .changeStore { failWrite := false }, .selectPlan 3, .changeStore { failRead := true },
    .loadPlan]

theorem plan_stored_failing :
    (usual.active.plan = none ∧ (∀ s ∈ failingSteps, s.leavesByte = true)) ∧
      (usual.run failingSteps).2.active.plan = some .flatPremium ∧
      (usual.run failingSteps).2.store.writes = 4 ∧ PlanSafe (usual.run failingSteps).2 :=
  ⟨⟨rfl, by decide⟩, by decide +kernel, by decide +kernel, plan_stored rfl (by decide)⟩

end EnergyMeter
