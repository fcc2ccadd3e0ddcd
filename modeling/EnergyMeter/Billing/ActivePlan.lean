import EnergyMeter.Log

/-!
# The plan in force

The selected plan and its persistence. A plan comes into force only after the store holds
its byte, so whoever restarts the meter finds the plan that was last in force.

The store is one persistent byte whose accesses can fail. It counts every access, also those
that failed; a failed write leaves the byte as it was.
-/
namespace EnergyMeter

/-- A persistent byte, and whether its next accesses fail. -/
structure PlanStore where
  byte : UInt8 := 0
  failRead : Bool := false
  failWrite : Bool := false
  reads : Nat := 0
  writes : Nat := 0
  deriving DecidableEq, Repr

namespace PlanStore

def readFault : Nat := 1

def writeFault : Nat := 2

def read (store : PlanStore) : Except Nat UInt8 × PlanStore :=
  let answer := if store.failRead then .error readFault else .ok store.byte
  (answer, { store with reads := store.reads + 1 })

def write (store : PlanStore) (byte : UInt8) : Except Nat Unit × PlanStore :=
  let tried := { store with writes := store.writes + 1 }
  if store.failWrite then (.error writeFault, tried) else (.ok (), { tried with byte })

end PlanStore

/-- A change to a plan store from outside: a new byte, or accesses that fail from now on or
no longer do. What is not given stays. -/
structure StoreChange where
  byte : Option UInt8 := none
  failRead : Option Bool := none
  failWrite : Option Bool := none
  deriving DecidableEq, Repr

/-- Applies a change. The counts of accesses go on. -/
def PlanStore.change (store : PlanStore) (change : StoreChange) : PlanStore :=
  { store with
    byte := change.byte.getD store.byte
    failRead := change.failRead.getD store.failRead
    failWrite := change.failWrite.getD store.failWrite }

/-- The plan in force; none until one was loaded or selected. -/
structure ActivePlan where
  plan : Option Plan := none
  deriving DecidableEq, Repr

/-- What became of a request to load or select a plan. -/
structure PlanAnswer where
  result : Except Fault Plan
  active : ActivePlan
  store : PlanStore

def Plan.writeTo (plan : Plan) (store : PlanStore) : Noted (Except Fault Unit × PlanStore) :=
  match store.write plan.byte with
  | (.error code, store) => { value := (.error .storage, store), log := [.storeWriteFailed code] }
  | (.ok (), store) => { value := (.ok (), store) }

namespace ActivePlan

/-- The byte reported for the plan in force, zero for none. -/
def byte (active : ActivePlan) : UInt8 := (active.plan.map Plan.byte).getD 0

/-- The rate in force during an hour, zero while no plan is. -/
def rate (active : ActivePlan) (hour : UInt8) : UInt32 :=
  match active.plan with
  | none => 0
  | some plan => plan.rate hour

/-- Puts the stored plan in force. A byte that is no plan's stands for the plan by the
hour, which is written back first. -/
def load (active : ActivePlan) (store : PlanStore) : Noted PlanAnswer :=
  match store.read with
  | (.error code, store) =>
    { value := ⟨.error .storage, active, store⟩, log := [.storeReadFailed code] }
  | (.ok byte, store) =>
    match Plan.ofByte byte with
    | .ok plan => { value := ⟨.ok plan, ⟨some plan⟩, store⟩, log := [.planLoaded plan] }
    | .error _ =>
      let plan := Plan.timeOfUse
      let written := plan.writeTo store
      match written.value with
      | (.error fault, store) =>
        { value := ⟨.error fault, active, store⟩
          log := .storedByteInvalid byte :: written.log }
      | (.ok (), store) =>
        { value := ⟨.ok plan, ⟨some plan⟩, store⟩
          log := .storedByteInvalid byte :: written.log ++ [.planLoaded plan] }

/-- Selects the plan of a byte and stores it. Selecting the plan in force does nothing. -/
def select (active : ActivePlan) (store : PlanStore) (byte : UInt8) : Noted PlanAnswer :=
  match Plan.ofByte byte with
  | .error fault => { value := ⟨.error fault, active, store⟩ }
  | .ok plan =>
    if active.plan = some plan then { value := ⟨.ok plan, active, store⟩ }
    else
      let written := plan.writeTo store
      match written.value with
      | (.error fault, store) => { value := ⟨.error fault, active, store⟩, log := written.log }
      | (.ok (), store) =>
        { value := ⟨.ok plan, ⟨some plan⟩, store⟩
          log := written.log ++ [.planSelected plan] }

def describe (active : ActivePlan) : String :=
  let plan :=
    match active.plan with
    | none => "None"
    | some plan => Text.wrapped "Some" plan.text
  Text.closedRecord "Tariff" [Text.field "mode" plan]

end ActivePlan

end EnergyMeter
