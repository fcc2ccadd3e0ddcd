import EnergyMeter.Pipeline.Schedule

/-!
# Events of a run

Every interrupt, every replaced intake and every sample that a consumer handled is an event,
kept together with the meter it happened to. What a run did in total is read off its list of
events, so a statement about whole runs compares that list with the meter the run left. An
invariant of the two is proved once for each kind of step; `Kept.run` carries it through
every schedule.
-/
namespace EnergyMeter

/-- Something that happened to a meter, with the meter as it was just before. -/
inductive Event where
  /-- The sampling interrupt. -/
  | interrupted (meter : Pipeline)
  /-- The intake gave up its converter to a new one. -/
  | restarted (meter : Pipeline)
  /-- A consumer handled a sample that no longer waits in its queue. -/
  | handled (meter : Pipeline) (consumer : Consumer) (sample : Sample)

namespace Pipeline

/-- The event of serving a consumer, none if nothing waits for it. -/
def serveEvents (p : Pipeline) (consumer : Consumer) : List Event :=
  match p.queues.receive? consumer with
  | none => []
  | some (sample, queues) => [.handled { p with queues } consumer sample]

/-- The events of serving a consumer so many times. -/
def serveTimesEvents (p : Pipeline) (consumer : Consumer) : Nat → List Event
  | 0 => []
  | n + 1 => p.serveEvents consumer ++ (p.serve consumer).2.serveTimesEvents consumer n

/-- The events of one step. -/
def stepEvents (p : Pipeline) : Step → List Event
  | .interrupt => [.interrupted p]
  | .restart => [.restarted p]
  | .serve consumer => p.serveEvents consumer
  | .drain consumer => p.serveTimesEvents consumer (p.queues.get consumer).length
  | .hand consumer sample => [.handled p consumer sample]
  | _ => []

/-- The events of a schedule, in order. -/
def events (p : Pipeline) : List Step → List Event
  | [] => []
  | first :: rest => p.stepEvents first ++ (p.step first).2.events rest

@[simp] theorem run_cons (p : Pipeline) (first : Step) (rest : List Step) :
    (p.run (first :: rest)).2 = ((p.step first).2.run rest).2 := rfl

@[simp] theorem events_append (p : Pipeline) (steps more : List Step) :
    p.events (steps ++ more) = p.events steps ++ (p.run steps).2.events more := by
  induction steps generalizing p with
  | nil => rfl
  | cons first rest ih =>
    rw [List.cons_append, events, events, ih, run_cons, List.append_assoc]

variable {α : Type} {f : Event → List α}

theorem flatMap_serveTimesEvents {g : Served → List α} {consumer : Consumer}
    (h : ∀ p : Pipeline, (p.serveEvents consumer).flatMap f = g (p.serve consumer).1) (n : Nat)
    (p : Pipeline) :
    (p.serveTimesEvents consumer n).flatMap f = (p.serveTimes consumer n).1.flatMap g := by
  induction n generalizing p with
  | zero => rfl
  | succ n ih =>
    rw [serveTimesEvents, List.flatMap_append, h, ih]
    rfl

/-- What can be read off the events of each step can be read off the steps of a run and their
answers. -/
theorem flatMap_events_zip {g : Step → Outcome → List α}
    (h : ∀ (p : Pipeline) (s : Step), (p.stepEvents s).flatMap f = g s (p.step s).1)
    (p : Pipeline) (steps : List Step) :
    (p.events steps).flatMap f =
      (steps.zip (p.run steps).1).flatMap fun answered => g answered.1 answered.2 := by
  induction steps generalizing p with
  | nil => rfl
  | cons first rest ih =>
    rw [events, List.flatMap_append, h, ih]
    rfl

theorem length_run (p : Pipeline) (steps : List Step) :
    (p.run steps).1.length = steps.length := by
  induction steps generalizing p with
  | nil => rfl
  | cons first rest ih => exact congrArg (· + 1) (ih (p.step first).2)

theorem flatMap_events {g : Outcome → List α}
    (h : ∀ (p : Pipeline) (s : Step), (p.stepEvents s).flatMap f = g (p.step s).1)
    (p : Pipeline) (steps : List Step) :
    (p.events steps).flatMap f = (p.run steps).1.flatMap g := by
  have hsnd : (steps.zip (p.run steps).1).map Prod.snd = (p.run steps).1 :=
    List.map_snd_zip (Nat.le_of_eq (p.length_run steps))
  rw [flatMap_events_zip (g := fun _ => g) h, ← List.flatMap_map Prod.snd g, hsnd]

end Pipeline

/-- A step that moves no sample: the converter's script grows, or something that the meter
works with is set. -/
def Step.isSetting : Step → Bool
  | .appendScript _ | .setHour _ | .setScale _ | .setTestMode _ => true
  | .loadPlan | .selectPlan _ | .changeStore _ => true
  | _ => false

/-- The second meter has got as far with its samples as the first. -/
structure SameWork (p q : Pipeline) : Prop where
  overruns : q.intake.overruns = p.intake.overruns
  queues : q.queues = p.queues
  voltage : q.voltage = p.voltage
  current : q.current = p.current
  cycle : q.cycle = p.cycle
  totals : q.board.totals = p.board.totals
  timer : q.board.timer = p.board.timer

theorem sameWork_setting {s : Step} (hs : s.isSetting = true) (p : Pipeline) :
    SameWork p (p.step s).2 := by
  cases s with
  | appendScript | setHour | setScale | setTestMode | loadPlan | selectPlan | changeStore =>
    constructor <;> rfl
  | interrupt | restart | serve | drain | hand | send | receive => cases hs

theorem stepEvents_setting {s : Step} (hs : s.isSetting = true) (p : Pipeline) :
    p.stepEvents s = [] := by
  cases s with
  | appendScript | setHour | setScale | setTestMode | loadPlan | selectPlan | changeStore => rfl
  | interrupt | restart | serve | drain | hand | send | receive => cases hs

/-- A relation between the events so far and the meter they led to, kept by every allowed
step. A consumer that drains its queue is served one sample at a time. -/
structure Kept (Allowed : Step → Prop) (Inv : List Event → Pipeline → Prop) : Prop where
  setting : ∀ s, s.isSetting = true → Allowed s → ∀ es p, Inv es p → Inv es (p.step s).2
  interrupt : ∀ es p, Inv es p → Inv (es ++ [.interrupted p]) p.interrupt.2
  restart : Allowed .restart → ∀ es p, Inv es p → Inv (es ++ [.restarted p]) p.restart
  serve : ∀ consumer es p sample queues,
    p.queues.receive? consumer = some (sample, queues) → Inv es p →
    Inv (es ++ [.handled { p with queues } consumer sample])
      ({ p with queues }.handle consumer sample).2
  hand : ∀ consumer sample, Allowed (.hand consumer sample) → ∀ es p, Inv es p →
    Inv (es ++ [.handled p consumer sample]) (p.handle consumer sample).2
  send : ∀ consumer sample, Allowed (.send consumer sample) → ∀ es p queues,
    p.queues.send? consumer sample = some queues → Inv es p → Inv es { p with queues }
  receive : ∀ consumer, Allowed (.receive consumer) → ∀ es p sample queues,
    p.queues.receive? consumer = some (sample, queues) → Inv es p → Inv es { p with queues }

namespace Kept

variable {Allowed : Step → Prop} {Inv : List Event → Pipeline → Prop}

theorem serve_one (h : Kept Allowed Inv) (consumer : Consumer) {es : List Event} {p : Pipeline}
    (hi : Inv es p) : Inv (es ++ p.serveEvents consumer) (p.serve consumer).2 := by
  unfold Pipeline.serveEvents Pipeline.serve
  cases hr : p.queues.receive? consumer with
  | none => simpa using hi
  | some taken =>
    obtain ⟨sample, queues⟩ := taken
    exact h.serve consumer es p sample queues hr hi

theorem serve_times (h : Kept Allowed Inv) (consumer : Consumer) (n : Nat) {es : List Event}
    {p : Pipeline} (hi : Inv es p) :
    Inv (es ++ p.serveTimesEvents consumer n) (p.serveTimes consumer n).2 := by
  induction n generalizing es p with
  | zero => simpa [Pipeline.serveTimesEvents, Pipeline.serveTimes] using hi
  | succ n ih =>
    have hn := ih (h.serve_one consumer hi)
    rw [List.append_assoc] at hn
    exact hn

theorem step (h : Kept Allowed Inv) {s : Step} (hs : Allowed s) {es : List Event}
    {p : Pipeline} (hi : Inv es p) : Inv (es ++ p.stepEvents s) (p.step s).2 := by
  cases s with
  | interrupt => exact h.interrupt es p hi
  | restart => exact h.restart hs es p hi
  | serve consumer => exact h.serve_one consumer hi
  | drain consumer => exact h.serve_times consumer _ hi
  | hand consumer sample => exact h.hand consumer sample hs es p hi
  | send consumer sample =>
    show Inv (es ++ []) _
    rw [List.append_nil]
    cases hq : p.queues.send? consumer sample with
    | none => simpa [Pipeline.step, Pipeline.send, hq] using hi
    | some queues =>
      simpa [Pipeline.step, Pipeline.send, hq] using h.send consumer sample hs es p queues hq hi
  | receive consumer =>
    show Inv (es ++ []) _
    rw [List.append_nil]
    cases hq : p.queues.receive? consumer with
    | none => simpa [Pipeline.step, Pipeline.receive, hq] using hi
    | some taken =>
      obtain ⟨sample, queues⟩ := taken
      simpa [Pipeline.step, Pipeline.receive, hq] using
        h.receive consumer hs es p sample queues hq hi
  | appendScript | setHour | setScale | setTestMode | loadPlan | selectPlan | changeStore =>
    rw [stepEvents_setting rfl, List.append_nil]
    exact h.setting _ rfl hs es p hi

theorem run_after (h : Kept Allowed Inv) {steps : List Step} (hs : ∀ s ∈ steps, Allowed s)
    {es : List Event} {p : Pipeline} (hi : Inv es p) :
    Inv (es ++ p.events steps) (p.run steps).2 := by
  induction steps generalizing es p with
  | nil => simpa [Pipeline.events, Pipeline.run] using hi
  | cons first rest ih =>
    have hfirst := h.step (hs first (by simp)) hi
    have hrest := ih (fun s hm => hs s (by simp [hm])) hfirst
    rw [List.append_assoc] at hrest
    exact hrest

/-- What every allowed step keeps holds after every schedule of allowed steps. -/
theorem run (h : Kept Allowed Inv) {steps : List Step} (hs : ∀ s ∈ steps, Allowed s)
    {p : Pipeline} (hi : Inv [] p) : Inv (p.events steps) (p.run steps).2 :=
  h.run_after hs hi

end Kept

end EnergyMeter
