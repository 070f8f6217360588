import NginLog.Sinks.DailyRotation

/-!
# Archive slots for empty files

The size test of a write compares the file and the record together with the
limit, also when the file is empty.  A record that is over the limit by itself
then moves an empty file to the first retention slot, and the last one is lost
for it.
-/

namespace NginLog
namespace Sinks

open Foundation Record Formatting RotatingFileSink

section

variable (platform : Platform) (options : RotatingFileSinkOptions)
  {formatter : RecordFormatter}

/-- A write that rotates moves a file with text in it to the first slot. -/
def SpendsSlotOnText (s : SinkRun formatter) (record : LogRecordView)
    (s' : SinkRun formatter) : Prop :=
  Rotates platform options s record ->
    contents options.path s'.1.disk 1 ≠ some []

def activeText (s : SinkRun formatter) : Bytes :=
  (contents options.path s.1.disk 0).getD []

def lineLength (s : SinkRun formatter) (record : LogRecordView) : Nat :=
  ((s.1.entries (Call.write {} record)).flatMap Entry.line).length

/--
If the active file is empty, the record is within the limit and the date test
does not see another day.
-/
def FitsFreshFile (s : SinkRun formatter) (record : LogRecordView)
    (_ : SinkRun formatter) : Prop :=
  activeText options s = [] ->
    lineLength s record ≤ options.maxFileBytes ∧
      ¬ (options.rotateDailyLocal = true ∧ KeyDiffers platform s record)

end

section

variable {platform : Platform} {options : RotatingFileSinkOptions}
  {formatter : RecordFormatter} {disk : Disk} {state : formatter.State}
  {s s' : SinkRun formatter} {record : LogRecordView}

theorem first_slot_of_rotates (hfiles : 1 ≤ options.maxFiles)
    (hrecorded : Recorded options disk s.1 s.2)
    (hstep : (writing platform options formatter disk state).step s record =
      some s')
    (hrotates : Rotates platform options s record) :
    contents options.path s'.1.disk 1 = contents options.path s.1.disk 0 := by
  rcases writing_step hstep with ⟨sink, _, hsink, _, _, hwritten, _, _⟩
  have hwrite : SinkStep platform options formatter s.1
      (Call.write {} record) s'.1 := by
    rw [hsink, hwritten]
    exact SinkStep.write sink {} record
  have hseries := contents_step hrecorded.live rfl hwrite
  have hdue : s.1.rotates platform options (Call.write {} record) = true :=
    hrotates
  rw [hseries, hdue]
  show Series.extend (rotateSeries options _) _ 1 = _
  unfold Series.extend
  rw [Directory.store_of_ne _ _ Nat.one_ne_zero]
  exact Series.rotate_succ options.append _ hfiles

theorem rotates_iff_of_active {sink : RotatingFileSink formatter.State}
    {past : Past} {text : Bytes} (hlimit : options.maxFileBytes > 0)
    (hlive : Live options sink)
    (hactive : contents options.path sink.disk 0 = some text)
    (record : LogRecordView) :
    Rotates platform options (Phase.running sink, past) record <->
      text.length + lineLength (Phase.running sink, past) record >
          options.maxFileBytes ∨
        (options.rotateDailyLocal = true ∧
          KeyDiffers platform (Phase.running sink, past) record) := by
  have hover : PushesOver options (Phase.running sink, past) record <->
      text.length + lineLength (Phase.running sink, past) record >
        options.maxFileBytes := by
    unfold PushesOver lineLength
    show _ ∧ ((contents options.path sink.disk 0).getD []).length + _ > _ <-> _
    rw [hactive]
    exact and_iff_right hlimit
  rw [rotates_iff hlive, hover]

theorem spendsSlotOnText_iff (hfiles : 1 ≤ options.maxFiles)
    (hlimit : options.maxFileBytes > 0)
    (hrecorded : Recorded options disk s.1 s.2)
    (hstep : (writing platform options formatter disk state).step s record =
      some s') :
    SpendsSlotOnText platform options s record s' <->
      FitsFreshFile platform options s record s' := by
  have hfirst := first_slot_of_rotates hfiles hrecorded hstep
  rcases writing_step hstep with ⟨sink, _, hsink, _, _, _, _, _⟩
  have hlive := hrecorded.live sink hsink
  rcases s with ⟨phase, past⟩
  cases hsink
  rcases hlive.active with ⟨text, hactive, _⟩
  have htext : activeText options (Phase.running sink, past) = text := by
    show (contents options.path sink.disk 0).getD [] = _
    rw [hactive]
    rfl
  have hrotates := @rotates_iff_of_active platform options formatter sink past
    text hlimit hlive hactive record
  unfold SpendsSlotOnText FitsFreshFile
  rw [htext]
  constructor
  · intro h hempty
    have hstays : ¬ Rotates platform options (Phase.running sink, past)
        record := by
      intro hrotated
      refine h hrotated ?_
      rw [hfirst hrotated, ← hempty]
      exact hactive
    rw [hrotates, hempty] at hstays
    simp only [List.length_nil, Nat.zero_add, not_or] at hstays
    exact ⟨Nat.le_of_not_lt hstays.1, hstays.2⟩
  · intro h hrotated hslot
    rw [hfirst hrotated] at hslot
    have hempty : text = [] := Option.some.inj (hactive.symm.trans hslot)
    rw [hrotates, hempty] at hrotated
    rcases h hempty with ⟨hfits, hsameDay⟩
    rcases hrotated with hlong | hday
    · simp only [List.length_nil, Nat.zero_add] at hlong
      exact absurd hfits (Nat.not_le_of_lt hlong)
    · exact hsameDay hday

end

/--
In every run of writes, the rotations spend slots on files with text just if
each record that comes to an empty file fits into it and has the remembered day.
-/
theorem archive_slots_iff (platform : Platform)
    (options : RotatingFileSinkOptions) (formatter : RecordFormatter)
    (disk : Disk) (state : formatter.State) (hfiles : 1 ≤ options.maxFiles)
    (hlimit : options.maxFileBytes > 0) (records : List LogRecordView) :
    (writing platform options formatter disk state).EachStep
        (SpendsSlotOnText platform options)
        (writing platform options formatter disk state).init records <->
      (writing platform options formatter disk state).EachStep
        (FitsFreshFile platform options)
        (writing platform options formatter disk state).init records := by
  refine @Machine.eachStep_iff_eachStep _ _ _
    (fun s => Recorded options disk s.1 s.2) _ _ ?_ ?_ _ records ?_
  · intro s record s' hrecorded hstep
    exact spendsSlotOnText_iff hfiles hlimit hrecorded hstep
  · intro s record s' hrecorded hstep _
    exact recorded_writing hrecorded hstep
  · exact recorded_init

theorem short_records_spend_no_slot :
    (writing smallPlatform smallLog messageFormatter emptyDisk ()).EachStep
      (SpendsSlotOnText smallPlatform smallLog)
      (writing smallPlatform smallLog messageFormatter emptyDisk ()).init
      [{ message := ascii "one" }, { message := ascii "two" }] := by
  refine (archive_slots_iff smallPlatform smallLog messageFormatter emptyDisk ()
    (by decide) (by decide) _).mpr ?_
  rintro s ⟨⟩
  refine ⟨fun _ => ⟨by decide, fun hday => by cases hday.1⟩, ?_⟩
  rintro s ⟨⟩
  refine ⟨fun hempty => ?_, trivial⟩
  exact absurd hempty (by decide)

/-- A record over the limit, on a new file. -/
theorem overlong_record_spends_slot :
    ¬ (writing smallPlatform smallLog messageFormatter emptyDisk ()).EachStep
      (SpendsSlotOnText smallPlatform smallLog)
      (writing smallPlatform smallLog messageFormatter emptyDisk ()).init
      [{ message := ascii "overlong" }] := by
  intro h
  exact (h _ rfl).1 rfl rfl

end Sinks
end NginLog
