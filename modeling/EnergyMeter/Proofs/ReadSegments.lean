import EnergyMeter.Proofs.SlotHistory

/-!
# The reads of an interrupt

Asked again and again, a converter gives a stream of readings: what its script holds, read by
read, then zeros for ever. An interrupt takes a first segment of that stream and leaves the rest.
The segment waits for the voltage, takes it, waits for the current and takes it, and a fault ends
it early. So successive interrupts cut the stream into consecutive segments, whatever the queues
that they find: no reading is left out or used twice, and a voltage is never paired with the
current of another interrupt.
-/
namespace EnergyMeter

/-- What an item of a script answers, read by read. -/
def Conversion.readings : Conversion → List Reading
  | .done raw => [.value raw]
  | .busy reads => List.replicate reads .pending
  | .failed code => [.failure code]

/-- The reading that ended a conversion. -/
def endOf : Except Nat Int16 → Reading
  | .ok raw => .value raw
  | .error code => .failure code

theorem endOf_injective : Function.Injective endOf := by
  intro first second h
  cases first <;> cases second <;> cases h <;> rfl

theorem endOf_ne_pending (result : Except Nat Int16) : endOf result ≠ .pending := by
  cases result <;> exact Reading.noConfusion

/-- The readings of a conversion: pending so often, then the one that ends it. -/
def waitedFor (waited : Nat) (last : Reading) : List Reading :=
  List.replicate waited .pending ++ [last]

namespace Converter

/-- What a script answers, read by read, then zeros for ever. -/
def stream (script : List Conversion) : Stream' Reading :=
  script.flatMap Conversion.readings ++ₛ Stream'.const (.value 0)

/-- The reads that a script keeps pending. -/
def waits (script : List Conversion) : Nat :=
  (script.flatMap Conversion.readings).count .pending

/-- A read answers the first reading of a script, or zero for ever if nothing is left to read. -/
theorem readings_next (script : List Conversion) :
    (script.flatMap Conversion.readings = [] ∧ next script = (.value 0, [])) ∨
      script.flatMap Conversion.readings =
        (next script).1 :: (next script).2.flatMap Conversion.readings := by
  induction script with
  | nil => exact .inl ⟨rfl, rfl⟩
  | cons item rest ih =>
    match item with
    | .done raw => exact .inr rfl
    | .failed code => exact .inr rfl
    | .busy 0 => exact ih
    | .busy 1 => exact .inr rfl
    | .busy (more + 2) => exact .inr rfl

/-- Between the two converters these readings were answered, to reads of these inputs. The first
of them begin the stream, and the rest of the stream is left. -/
structure Took (before : Converter) (readings : List Reading) (inputs : List AnalogInput)
    (after : Converter) : Prop where
  stream : stream before.script = readings ++ₛ stream after.script
  reads : after.reads.toList = before.reads.toList ++ inputs
  waits : waits before.script = readings.count .pending + waits after.script

theorem took_nothing (converter : Converter) : Took converter [] [] converter :=
  ⟨rfl, (List.append_nil _).symm, (Nat.zero_add _).symm⟩

theorem Took.trans {first second third : Converter} {readings more : List Reading}
    {inputs others : List AnalogInput} (h : Took first readings inputs second)
    (hmore : Took second more others third) :
    Took first (readings ++ more) (inputs ++ others) third := by
  constructor
  · rw [h.stream, hmore.stream, Stream'.append_append_stream]
  · rw [hmore.reads, h.reads, List.append_assoc]
  · rw [h.waits, hmore.waits, List.count_append, Nat.add_assoc]

theorem took_read (converter : Converter) (input : AnalogInput) :
    Took converter [(converter.read input).1] [input] (converter.read input).2 := by
  obtain ⟨script, reads⟩ := converter
  show Took _ [(next script).1] [input] ⟨(next script).2, reads.push input⟩
  obtain ⟨hnone, hnext⟩ | hreadings := readings_next script
  · -- A script that has run out reads zero, and nothing is left of it.
    rw [hnext]
    constructor
    · rw [Converter.stream, hnone]
      exact Stream'.const_eq _
    · exact Array.toList_push
    · rw [Converter.waits, hnone]
      rfl
  · constructor
    · rw [Converter.stream, hreadings, ← List.singleton_append, Stream'.append_append_stream]
      rfl
    · exact Array.toList_push
    · rw [Converter.waits, hreadings, ← List.singleton_append, List.count_append]
      rfl

/-- A conversion is over with the first reading that is not pending. -/
theorem took_convert_of_ended {converter : Converter} {input : AnalogInput}
    (h : (converter.read input).1 ≠ .pending) :
    Took converter [endOf (converter.convert input).1] [input] (converter.convert input).2 := by
  have hended : endOf (converter.convert input).1 = (converter.read input).1 ∧
      (converter.convert input).2 = (converter.read input).2 := by
    rw [convert]
    split
    · next raw hr => exact ⟨hr.symm, rfl⟩
    · next code hr => exact ⟨hr.symm, rfl⟩
    · next hr => exact absurd hr h
  rw [hended.1, hended.2]
  exact took_read converter input

theorem convert_of_pending {converter : Converter} {input : AnalogInput}
    (h : (converter.read input).1 = .pending) :
    converter.convert input = (converter.read input).2.convert input := by
  rw [convert]
  split
  · next raw hr => cases h.symm.trans hr
  · next code hr => cases h.symm.trans hr
  · rfl

/-- A conversion takes the readings that find it pending and the one that ends it, all on its own
input. -/
theorem took_convert (converter : Converter) (input : AnalogInput) :
    ∃ waited, Took converter (waitedFor waited (endOf (converter.convert input).1))
      (List.replicate (waited + 1) input) (converter.convert input).2 := by
  induction converter using convert.induct input with
  | case1 converter raw hr =>
    exact ⟨0, took_convert_of_ended (by rw [hr]; exact Reading.noConfusion)⟩
  | case2 converter code hr =>
    exact ⟨0, took_convert_of_ended (by rw [hr]; exact Reading.noConfusion)⟩
  | case3 converter after hr ih =>
    obtain ⟨waited, htook⟩ := ih
    have hread := took_read converter input
    rw [hr] at hread
    refine ⟨waited + 1, ?_⟩
    rw [convert_of_pending hr]
    exact hread.trans htook

end Converter

/-- The reads of one interrupt: how often the voltage was pending and how it ended, and the same
of the current unless the voltage failed. -/
inductive PairRead where
  | voltageFailed (waited code : Nat)
  | currentFailed (waited : Nat) (voltage : Int16) (more code : Nat)
  | paired (waited : Nat) (voltage : Int16) (more : Nat) (current : Int16)
  deriving DecidableEq, Repr

namespace PairRead

def readings : PairRead → List Reading
  | voltageFailed waited code => waitedFor waited (.failure code)
  | currentFailed waited voltage more code =>
    waitedFor waited (.value voltage) ++ waitedFor more (.failure code)
  | paired waited voltage more current =>
    waitedFor waited (.value voltage) ++ waitedFor more (.value current)

def inputs : PairRead → List AnalogInput
  | voltageFailed waited _ => List.replicate (waited + 1) .voltage
  | currentFailed waited _ more _ | paired waited _ more _ =>
    List.replicate (waited + 1) .voltage ++ List.replicate (more + 1) .current

def result : PairRead → Except Fault Sample
  | voltageFailed .. => .error (.conversion .voltage)
  | currentFailed .. => .error (.conversion .current)
  | paired _ voltage _ current => .ok { voltage, current }

theorem length_inputs_le (segment : PairRead) :
    segment.inputs.length ≤ segment.readings.count .pending + 2 := by
  cases segment <;>
    simp only [inputs, readings, waitedFor, List.length_append, List.length_replicate, List.count_append,
      List.count_replicate_self] <;>
    omega

end PairRead

/-- A stream that begins with a conversion tells how long it was pending, how it ended and what
comes after it. -/
theorem ended_unique {waited more : Nat} (first second : Except Nat Int16)
    {rest tail : Stream' Reading}
    (h : waitedFor waited (endOf first) ++ₛ rest = waitedFor more (endOf second) ++ₛ tail) :
    waited = more ∧ first = second ∧ rest = tail := by
  induction waited generalizing more with
  | zero =>
    cases more with
    | zero =>
      obtain ⟨hend, htail⟩ := Stream'.cons_injective2 h
      exact ⟨rfl, endOf_injective hend, htail⟩
    | succ more => exact absurd (Stream'.cons_injective2 h).1 (endOf_ne_pending first)
  | succ waited ih =>
    cases more with
    | zero => exact absurd (Stream'.cons_injective2 h).1.symm (endOf_ne_pending second)
    | succ more =>
      obtain ⟨hwaited, hrest⟩ := ih (Stream'.cons_injective2 h).2
      exact ⟨congrArg (· + 1) hwaited, hrest⟩

theorem pair_unique {waited waited' more more' : Nat} {voltage voltage' : Int16}
    (current current' : Except Nat Int16) {rest tail : Stream' Reading}
    (h : (waitedFor waited (.value voltage) ++ waitedFor more (endOf current)) ++ₛ rest =
      (waitedFor waited' (.value voltage') ++ waitedFor more' (endOf current')) ++ₛ tail) :
    waited = waited' ∧ voltage = voltage' ∧ more = more' ∧ current = current' ∧ rest = tail := by
  rw [Stream'.append_append_stream, Stream'.append_append_stream (waitedFor waited' _)] at h
  obtain ⟨hwaited, hvoltage, hlater⟩ := ended_unique (.ok voltage) (.ok voltage') h
  obtain ⟨hmore, hcurrent, hrest⟩ := ended_unique current current' hlater
  exact ⟨hwaited, Except.ok.inj hvoltage, hmore, hcurrent, hrest⟩

namespace PairRead

/-- A stream begins with one segment only. -/
theorem readings_unique {segment other : PairRead} {rest tail : Stream' Reading}
    (h : segment.readings ++ₛ rest = other.readings ++ₛ tail) : segment = other ∧ rest = tail := by
  cases segment with
  | voltageFailed waited code =>
    cases other with
    | voltageFailed waited' code' =>
      obtain ⟨rfl, hend, rfl⟩ := ended_unique (.error code) (.error code') h
      cases hend
      exact ⟨rfl, rfl⟩
    | currentFailed waited' voltage' more' code' =>
      rw [readings, readings, Stream'.append_append_stream] at h
      cases (ended_unique (.error code) (.ok voltage') h).2.1
    | paired waited' voltage' more' current' =>
      rw [readings, readings, Stream'.append_append_stream] at h
      cases (ended_unique (.error code) (.ok voltage') h).2.1
  | currentFailed waited voltage more code =>
    cases other with
    | voltageFailed waited' code' =>
      rw [readings, readings, Stream'.append_append_stream] at h
      cases (ended_unique (.ok voltage) (.error code') h).2.1
    | currentFailed waited' voltage' more' code' =>
      obtain ⟨rfl, rfl, rfl, hend, rfl⟩ := pair_unique (.error code) (.error code') h
      cases hend
      exact ⟨rfl, rfl⟩
    | paired waited' voltage' more' current' =>
      cases (pair_unique (.error code) (.ok current') h).2.2.2.1
  | paired waited voltage more current =>
    cases other with
    | voltageFailed waited' code' =>
      rw [readings, readings, Stream'.append_append_stream] at h
      cases (ended_unique (.ok voltage) (.error code') h).2.1
    | currentFailed waited' voltage' more' code' =>
      cases (pair_unique (.ok current) (.error code') h).2.2.2.1
    | paired waited' voltage' more' current' =>
      obtain ⟨rfl, rfl, rfl, hend, rfl⟩ := pair_unique (.ok current) (.ok current') h
      cases hend
      exact ⟨rfl, rfl⟩

/-- So it is cut into so many segments in one way only. -/
theorem flatMap_readings_unique {segments others : List PairRead} {rest tail : Stream' Reading}
    (hl : segments.length = others.length)
    (h : segments.flatMap readings ++ₛ rest = others.flatMap readings ++ₛ tail) :
    segments = others := by
  induction segments generalizing others with
  | nil => exact (List.length_eq_zero_iff.mp hl.symm).symm
  | cons first more ih =>
    cases others with
    | nil => cases hl
    | cons other others =>
      rw [List.flatMap_cons, List.flatMap_cons, Stream'.append_append_stream,
        Stream'.append_append_stream] at h
      obtain ⟨rfl, hmore⟩ := readings_unique h
      rw [ih (Nat.succ.inj hl) hmore]

end PairRead

/-- What an interrupt does with a segment: the readings of the segment, each to a read of its
input, and the result that they make. A fault changes neither the queues nor the overruns; a pair
is posted. -/
structure PairRead.Done (segment : PairRead) (before : BareIntake) (done : Interrupt) : Prop where
  took : before.intake.converter.Took segment.readings segment.inputs done.intake.converter
  result : done.result = segment.result
  failed : ∀ fault, segment.result = .error fault →
    done.queues = before.queues ∧ done.intake.overruns = before.intake.overruns
  posted : ∀ sample, segment.result = .ok sample →
    Posted before [sample] ⟨done.intake, done.queues⟩

namespace Intake

theorem took_interrupt (intake : Intake) (queues : SampleQueues) :
    let done := (intake.interrupt queues).value
    ∃ segment : PairRead,
      intake.converter.Took segment.readings segment.inputs done.intake.converter ∧
        done.result = segment.result := by
  intro done
  obtain ⟨waited, hvoltage⟩ := intake.converter.took_convert .voltage
  rcases hv : intake.converter.convert .voltage with ⟨code | voltage, after⟩
  · rw [hv] at hvoltage
    refine ⟨.voltageFailed waited code, ?_⟩
    simp only [done, interrupt, read, hv]
    exact ⟨hvoltage, rfl⟩
  · rw [hv] at hvoltage
    obtain ⟨more, hcurrent⟩ := after.took_convert .current
    rcases hc : after.convert .current with ⟨code | current, last⟩
    · rw [hc] at hcurrent
      refine ⟨.currentFailed waited voltage more code, ?_⟩
      simp only [done, interrupt, read, hv, hc]
      exact ⟨hvoltage.trans hcurrent, rfl⟩
    · rw [hc] at hcurrent
      refine ⟨.paired waited voltage more current, ?_⟩
      simp only [done, interrupt, read, hv, hc]
      exact ⟨hvoltage.trans hcurrent, rfl⟩

theorem done_interrupt (intake : Intake) (queues : SampleQueues) :
    ∃ segment : PairRead, segment.Done ⟨intake, queues⟩ (intake.interrupt queues).value := by
  obtain ⟨segment, htook, hresult⟩ := intake.took_interrupt queues
  refine ⟨segment, htook, hresult, fun fault hf => ?_, fun sample hs => ?_⟩
  · -- Only an interrupt with a pair posts, and a segment with a fault gives none.
    obtain ⟨sample, -, -, hr, -⟩ | ⟨_, -, hoverruns, hqueues⟩ := intake.interrupt_value queues
    · cases hr.symm.trans (hresult.trans hf)
    · exact ⟨hqueues, hoverruns⟩
  · have hposted : Posted ⟨intake, queues⟩
        (intake.interrupt queues).value.result.toOption.toList
        ⟨(intake.interrupt queues).value.intake, (intake.interrupt queues).value.queues⟩ :=
      posted_interrupt ⟨intake, queues⟩
    rw [hresult, hs] at hposted
    exact hposted

/-- The intake after an interrupt at each of these queues, which may be any: what consumers do in
between does not matter. -/
def interruptAll (intake : Intake) (found : List SampleQueues) : Intake :=
  found.foldl (fun intake queues => (intake.interrupt queues).value.intake) intake

@[simp]
theorem interruptAll_snoc (intake : Intake) (found : List SampleQueues) (queues : SampleQueues) :
    intake.interruptAll (found ++ [queues]) =
      ((intake.interruptAll found).interrupt queues).value.intake := by
  simp only [interruptAll, List.foldl_append, List.foldl_cons, List.foldl_nil]

end Intake

/-- The reads of successive interrupts, one segment each: the segments follow each other in the
stream, and begin it. -/
structure Segmented (intake : Intake) (found : List SampleQueues) (segments : List PairRead) :
    Prop where
  one_each : segments.length = found.length
  took : intake.converter.Took (segments.flatMap PairRead.readings)
    (segments.flatMap PairRead.inputs) (intake.interruptAll found).converter
  each : ∀ (k : Nat) (queues : SampleQueues) (segment : PairRead),
    found[k]? = some queues → segments[k]? = some segment →
      segment.Done ⟨intake.interruptAll (found.take k), queues⟩
        ((intake.interruptAll (found.take k)).interrupt queues).value

theorem segmented_snoc {intake : Intake} {found : List SampleQueues} {segments : List PairRead}
    {queues : SampleQueues} {segment : PairRead} (h : Segmented intake found segments)
    (hdone : segment.Done ⟨intake.interruptAll found, queues⟩
      ((intake.interruptAll found).interrupt queues).value) :
    Segmented intake (found ++ [queues]) (segments ++ [segment]) := by
  constructor
  · rw [List.length_append, List.length_append, h.one_each]
    rfl
  · simpa using h.took.trans hdone.took
  · intro k other last hq hs
    rcases Nat.lt_or_ge k found.length with hlt | hge
    · rw [List.getElem?_append_left hlt] at hq
      rw [List.getElem?_append_left (h.one_each ▸ hlt)] at hs
      rw [List.take_append_of_le_length hlt.le]
      exact h.each k other last hq hs
    · obtain ⟨hk, -⟩ := List.getElem?_eq_some_iff.mp hq
      rw [List.length_append, List.length_singleton] at hk
      obtain rfl : k = found.length := by omega
      rw [List.getElem?_concat_length] at hq
      rw [← h.one_each, List.getElem?_concat_length] at hs
      obtain rfl := Option.some.inj hq
      obtain rfl := Option.some.inj hs
      rw [List.take_left]
      exact hdone

theorem exists_segmented (intake : Intake) (found : List SampleQueues) :
    ∃ segments, Segmented intake found segments := by
  induction found using List.reverseRecOn with
  | nil =>
    refine ⟨[], rfl, intake.converter.took_nothing, fun k queues segment hq => ?_⟩
    rw [List.getElem?_nil] at hq
    cases hq
  | append_singleton found queues ih =>
    obtain ⟨segments, hsegments⟩ := ih
    obtain ⟨segment, hdone⟩ := (intake.interruptAll found).done_interrupt queues
    exact ⟨segments ++ [segment], segmented_snoc hsegments hdone⟩

theorem length_flatMap_inputs_le (segments : List PairRead) :
    (segments.flatMap PairRead.inputs).length ≤
      (segments.flatMap PairRead.readings).count .pending + 2 * segments.length := by
  induction segments with
  | nil => exact Nat.le_refl _
  | cons first rest ih =>
    have hfirst := first.length_inputs_le
    simp only [List.flatMap_cons, List.length_append, List.length_cons, List.count_append]
    omega

/-- Interrupts, however many, cut the stream of their converter into segments, each its own, and
there is no other way to cut it. They come to an end: each makes two reads at most, besides those
that the script keeps pending. -/
theorem interrupts_segmented (intake : Intake) (found : List SampleQueues) :
    ∃ segments, Segmented intake found segments ∧
      (segments.flatMap PairRead.inputs).length ≤
        Converter.waits intake.converter.script + 2 * found.length ∧
      ∀ (others : List PairRead) (rest : Stream' Reading), others.length = found.length →
        Converter.stream intake.converter.script = others.flatMap PairRead.readings ++ₛ rest →
          others = segments := by
  obtain ⟨segments, hsegments⟩ := exists_segmented intake found
  have hle := length_flatMap_inputs_le segments
  have hwaits := hsegments.took.waits
  rw [hsegments.one_each] at hle
  refine ⟨segments, hsegments, by omega, fun others rest hl hstream => ?_⟩
  rw [hsegments.took.stream] at hstream
  exact (PairRead.flatMap_readings_unique (hsegments.one_each.trans hl.symm) hstream).symm

/-- A fault ends the first interrupt, and the second reads both inputs anew. -/
theorem interrupts_segmented_fault :
    Segmented (.onto { script := [.busy 2, .failed 3, .done 7, .busy 1, .done 9] }) [{}, {}]
      [.voltageFailed 2 3, .paired 0 7 1 9] := by
  obtain ⟨segments, hsegments, -, hunique⟩ := interrupts_segmented
    (.onto { script := [.busy 2, .failed 3, .done 7, .busy 1, .done 9] }) [{}, {}]
  rw [hunique [.voltageFailed 2 3, .paired 0 7 1 9] (Stream'.const (.value 0)) rfl rfl]
  exact hsegments

end EnergyMeter
