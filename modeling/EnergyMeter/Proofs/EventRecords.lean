import EnergyMeter.Proofs.Conservation
import EnergyMeter.Proofs.LogRecords

/-!
# The log of a run

Every event leaves its records at the end of the log, and only a change of plan or time scale
leaves records besides. So, with the records of settings put aside, the log of a run is what was
there before and then the records of its events, in order; and what a run recorded can be counted
event by event.
-/
namespace EnergyMeter

namespace Event

def records : Event → List LogRecord
  | interrupted meter => meter.interruptRecords
  | restarted _ => []
  | handled meter consumer sample => meter.handleRecords consumer sample

/-- The records of what this consumer handled. -/
def recordsBy (consumer : Consumer) : Event → List LogRecord
  | handled meter server sample =>
    if server = consumer then meter.handleRecords server sample else []
  | _ => []

/-- The topics of what an event records. -/
def topics : Event → List LogTopic
  | interrupted _ => [.conversion, .channelQueue]
  | restarted _ => []
  | handled _ consumer _ => consumer.topics

theorem log_after (e : Event) :
    e.after.board.log.toList = e.before.board.log.toList ++ e.records := by
  rw [← Array.toList_appendList]
  cases e with
  | interrupted meter => rfl
  | restarted meter => exact congrArg Array.toList Array.appendList_nil.symm
  | handled meter consumer sample =>
    exact congrArg (·.2.board.log.toList) (meter.handle_withLog meter.board.log consumer sample)

theorem about_records (e : Event) : About e.topics e.records := by
  cases e with
  | interrupted meter => exact meter.about_interruptRecords
  | restarted meter => exact about_nil
  | handled meter consumer sample => exact meter.about_handleRecords consumer sample

theorem setting_notMem_topics (e : Event) : LogTopic.setting ∉ e.topics := by
  cases e with
  | interrupted meter => simp [topics]
  | restarted meter => simp [topics]
  | handled meter consumer sample => cases consumer <;> simp [topics, Consumer.topics]

end Event

theorem Plan.about_writeTo (plan : Plan) (store : PlanStore) :
    About [.setting] (plan.writeTo store).log := by
  unfold writeTo
  split
  · exact about_singleton List.mem_cons_self
  · exact about_nil

theorem ActivePlan.about_load (active : ActivePlan) (store : PlanStore) :
    About [.setting] (active.load store).log := by
  simp only [load]
  split
  · exact about_singleton List.mem_cons_self
  · next byte store _ =>
    have hinvalid : About [.setting]
        (.storedByteInvalid byte :: (Plan.timeOfUse.writeTo store).log) :=
      (about_singleton List.mem_cons_self).append (Plan.about_writeTo _ store)
    split
    · exact about_singleton List.mem_cons_self
    · split
      · exact hinvalid
      · exact hinvalid.append (about_singleton List.mem_cons_self)

theorem ActivePlan.about_select (active : ActivePlan) (store : PlanStore) (byte : UInt8) :
    About [.setting] (active.select store byte).log := by
  simp only [select]
  split
  · exact about_nil
  · next plan _ =>
    split
    · exact about_nil
    · split
      · exact plan.about_writeTo store
      · exact (plan.about_writeTo store).append (about_singleton List.mem_cons_self)

/-- A step that moves no sample records nothing but a setting. -/
theorem log_setting {s : Step} (hs : s.isSetting = true) (p : Pipeline) :
    ∃ records, (p.step s).2.board.log.toList = p.board.log.toList ++ records ∧
      About [.setting] records := by
  cases s with
  | setScale value => exact ⟨_, Array.toList_appendList, about_singleton List.mem_cons_self⟩
  | setTestMode on => exact ⟨_, Array.toList_appendList, about_singleton List.mem_cons_self⟩
  | loadPlan => exact ⟨_, Array.toList_appendList, p.active.about_load p.store⟩
  | selectPlan byte => exact ⟨_, Array.toList_appendList, p.active.about_select p.store byte⟩
  | appendScript | setHour | changeStore => exact ⟨[], (List.append_nil _).symm, about_nil⟩
  | interrupt | restart | serve | drain | hand | send | receive => cases hs

/-- The records of a list of events, in order. -/
def recordsOf (es : List Event) : List LogRecord := es.flatMap Event.records

@[simp] theorem recordsOf_snoc (es : List Event) (e : Event) :
    recordsOf (es ++ [e]) = recordsOf es ++ e.records := by
  rw [recordsOf, List.flatMap_append, List.flatMap_singleton]
  rfl

/-- The records that are not about settings. -/
def ownRecords (log : Array LogRecord) : List LogRecord :=
  log.toList.filter fun record => record.topic ≠ .setting

theorem ownRecords_kept (first : Pipeline) : Kept (fun _ => True) fun es p =>
    ownRecords p.board.log = ownRecords first.board.log ++ recordsOf es := by
  apply kept_of_events
  · intro s hs es p h
    obtain ⟨records, hlog, habout⟩ := log_setting hs p
    have hnone : records.filter (fun record => record.topic ≠ .setting) = [] := by
      rw [List.filter_eq_nil_iff]
      intro record hm
      simpa using habout record hm
    rw [ownRecords, hlog, List.filter_append, hnone, List.append_nil]
    exact h
  · exact fun es p queues h => h
  · intro es e h
    have hall : e.records.filter (fun record => record.topic ≠ .setting) = e.records := by
      rw [List.filter_eq_self]
      intro record hm
      have hne : record.topic ≠ .setting := fun ht =>
        e.setting_notMem_topics (ht ▸ e.about_records record hm)
      simpa using hne
    rw [ownRecords, e.log_after, List.filter_append, hall, recordsOf_snoc, ← List.append_assoc]
    exact congrArg (· ++ e.records) h

/-- The log of a run, but for the settings, is the log before it and the records of its events. -/
theorem ownRecords_run (p : Pipeline) (steps : List Step) :
    ownRecords (p.run steps).2.board.log =
      ownRecords p.board.log ++ recordsOf (p.events steps) :=
  (ownRecords_kept p).run (fun _ _ => trivial) (List.append_nil _).symm

end EnergyMeter
