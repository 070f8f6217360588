import NginLog.Sinks.Retention

/-!
# Daily rotation

The sink remembers the day of a record when it tests the date, and it does not
test the date of a record that makes it rotate by size.  So the remembered day
is that of the last record that was not over the limit.  It may be older than
the last record, and the date of a later record is then judged by the wrong day.
-/

namespace NginLog
namespace Sinks

open Foundation Record Formatting RotatingFileSink

/-!
## Days of records
-/

section

variable (platform : Platform) (options : RotatingFileSinkOptions)
  {formatter : RecordFormatter}

def recordDay (record : LogRecordView) : LocalDate :=
  localDay platform record.timestampEpochNanoseconds

def Entry.day (entry : Entry) : Option LocalDate :=
  entry.record.map (recordDay platform)

def previousDay (past : Past) : Option LocalDate :=
  past.written.getLast?.bind (Entry.day platform)

/-- A sink with the history of what it has written. -/
abbrev SinkRun (formatter : RecordFormatter) :=
  Phase formatter.State × Past

/-- The record would push the active file over a positive limit. -/
def PushesOver (s : SinkRun formatter) (record : LogRecordView) : Prop :=
  options.maxFileBytes > 0 ∧
    ((contents options.path s.1.disk 0).getD []).length +
      ((s.1.entries (Call.write {} record)).flatMap Entry.line).length >
        options.maxFileBytes

def DayChanges (s : SinkRun formatter) (record : LogRecordView) : Prop :=
  exists day, previousDay platform s.2 = some day ∧
    recordDay platform record ≠ day

def Rotates (s : SinkRun formatter) (record : LogRecordView) : Prop :=
  s.1.rotates platform options (Call.write {} record) = true

def OneDay (file : List Entry) : Prop :=
  forall entry other day otherDay, entry ∈ file -> other ∈ file ->
    entry.day platform = some day -> other.day platform = some otherDay ->
    day = otherDay

def activeEntries (past : Past) : List Entry :=
  (past.files 0).getD []

/-- What daily rotation is to do at a write. -/
structure FollowsDays (s : SinkRun formatter) (record : LogRecordView)
    (s' : SinkRun formatter) : Prop where
  exactly : Rotates platform options s record <->
    PushesOver options s record ∨ DayChanges platform s record
  oneDay : Series.Each (OneDay platform) s'.2.files
  /-- A record of the day of the active file does not rotate by date. -/
  sameDay : (forall entry day, entry ∈ activeEntries s.2 ->
      entry.day platform = some day -> day = recordDay platform record) ->
    Rotates platform options s record -> PushesOver options s record

def lastLocalDateKey : Phase formatter.State -> Int
  | Phase.running sink => sink.lastLocalDateKey
  | Phase.stopped _ => -1

/-- The remembered day is not that of the record. -/
def KeyDiffers (s : SinkRun formatter) (record : LogRecordView) : Prop :=
  lastLocalDateKey s.1 ≠ -1 ∧
    makeLocalDateKey platform record.timestampEpochNanoseconds ≠
      lastLocalDateKey s.1

/-- A sink that has been constructed on a disk, and then only writes. -/
def writing (formatter : RecordFormatter) (disk : Disk)
    (state : formatter.State) : Machine (SinkRun formatter) LogRecordView where
  init := (Phase.running (construct platform options {} state disk),
    notePast platform options (Phase.stopped disk) (Call.construct {} state)
      (Phase.running (construct platform options {} state disk))
      { files := initialFiles options.path disk })
  step := fun s record =>
    (sinkHistory platform options formatter disk).step s (Call.write {} record)

instance (s : SinkRun formatter) (record : LogRecordView) :
    Decidable (PushesOver options s record) :=
  inferInstanceAs (Decidable (_ ∧ _))

/-- The day of the last record since construction that was within the limit. -/
def noteTested (s : SinkRun formatter) (record : LogRecordView)
    (_ : SinkRun formatter) (tested : Option LocalDate) : Option LocalDate :=
  if PushesOver options s record then
    tested
  else
    some (recordDay platform record)

/-- The writes, with the day of the last record that was within the limit. -/
def testing (formatter : RecordFormatter) (disk : Disk)
    (state : formatter.State) :
    Machine (SinkRun formatter × Option LocalDate) LogRecordView :=
  (writing platform options formatter disk state).recording none
    (noteTested platform options)

/--
The last record within the limit misleads about a record that is within it too:
its day is another one while the record before has the day of this record, or
the day of this record is new but that record has it already, or there is none.
-/
def Misled (s : SinkRun formatter × Option LocalDate)
    (record : LogRecordView) : Prop :=
  ¬ PushesOver options s.1 record ∧
    (((exists day, s.2 = some day ∧ day ≠ recordDay platform record) ∧
        previousDay platform s.1.2 = some (recordDay platform record)) ∨
      ((forall day, s.2 = some day -> day = recordDay platform record) ∧
        DayChanges platform s.1 record))

end

/-!
## Steps

A write appends one entry, after a rotation if there is one.  Without daily
rotation only the size matters.
-/

section

variable {platform : Platform} {options : RotatingFileSinkOptions}
  {formatter : RecordFormatter} {disk : Disk} {state : formatter.State}
  {s s' : SinkRun formatter} {record : LogRecordView}

theorem writing_step
    (h : (writing platform options formatter disk state).step s record =
      some s') :
    exists sink entry, s.1 = Phase.running sink ∧
      s.1.entries (Call.write {} record) = [entry] ∧
      entry.record = some record ∧
      s'.1 = Phase.running
        (RotatingFileSink.write platform options formatter {} record sink) ∧
      s'.2.written = s.2.written ++ [entry] ∧
      s'.2.files = Series.extend
        (if s.1.rotates platform options (Call.write {} record) then
          rotateSeries options s.2.files
        else
          s.2.files) [entry] := by
  rcases s with ⟨phase, past⟩
  rcases Option.map_eq_some_iff.mp h with ⟨phase', hstep, rfl⟩
  cases phase with
  | stopped disk' => cases hstep
  | running sink =>
      cases hstep
      exact ⟨sink, _, rfl, rfl, rfl, rfl, rfl, rfl⟩

/-!
The date test gives the day that it remembers afterwards.
-/

theorem shouldRotateByDateLocked_fst {State : Type} (record : LogRecordView)
    (sink : RotatingFileSink State) :
    (shouldRotateByDateLocked platform options record sink).1 = true <->
      options.rotateDailyLocal = true ∧ sink.lastLocalDateKey ≠ -1 ∧
        makeLocalDateKey platform record.timestampEpochNanoseconds ≠
          sink.lastLocalDateKey := by
  unfold shouldRotateByDateLocked
  split
  · rename_i hdaily
    dsimp only
    split
    · rename_i hnone
      simp [hnone]
    · rename_i hsome
      split
      · rename_i hdiffers
        simp [hdaily, hsome, hdiffers]
      · rename_i hsame
        simp [hsame]
  · rename_i hdaily
    simp [hdaily]

theorem shouldRotateByDateLocked_snd {State : Type}
    (hdaily : options.rotateDailyLocal = true) (record : LogRecordView)
    (sink : RotatingFileSink State) :
    (shouldRotateByDateLocked platform options record
        sink).2.lastLocalDateKey =
      makeLocalDateKey platform record.timestampEpochNanoseconds := by
  unfold shouldRotateByDateLocked
  rw [if_pos hdaily]
  dsimp only
  split
  · rfl
  · split
    · rfl
    · rename_i hsame
      exact (not_not.mp hsame).symm

theorem lastLocalDateKey_write {sink : RotatingFileSink formatter.State}
    (hlive : Live options sink) (hdaily : options.rotateDailyLocal = true)
    (record : LogRecordView) :
    (RotatingFileSink.write platform options formatter {} record
        sink).lastLocalDateKey =
      if exceedsMaxFileBytes options (formatted formatter record sink) then
        sink.lastLocalDateKey
      else
        makeLocalDateKey platform record.timestampEpochNanoseconds := by
  have hrotated : (rotatedIfDue platform options {} record
      sink).lastLocalDateKey =
        (rotationDue platform options record
          (formatted formatter record sink)).2.lastLocalDateKey := by
    unfold rotatedIfDue rotateLocked openFileLocked
    dsimp only
    split <;> rfl
  rw [hlive.write platform rfl]
  refine hrotated.trans ?_
  unfold rotationDue
  split
  · rfl
  · exact shouldRotateByDateLocked_snd hdaily record _

theorem pushesOver_iff {sink : RotatingFileSink formatter.State} {past : Past}
    (hlive : Live options sink) (record : LogRecordView) :
    PushesOver options (Phase.running sink, past) record <->
      exceedsMaxFileBytes options (formatted formatter record sink) = true := by
  rcases hlive.active with ⟨text, hactive, hsize⟩
  unfold PushesOver exceedsMaxFileBytes
  show _ ∧ ((contents options.path sink.disk 0).getD []).length + _ > _ <-> _
  rw [hactive, decide_eq_true_iff]
  simp only [Phase.entries, List.flatMap_cons, List.flatMap_nil,
    List.append_nil, Option.getD_some, formatted, hsize]

theorem rotates_iff {sink : RotatingFileSink formatter.State} {past : Past}
    (hlive : Live options sink) (record : LogRecordView) :
    Rotates platform options (Phase.running sink, past) record <->
      PushesOver options (Phase.running sink, past) record ∨
        (options.rotateDailyLocal = true ∧
          KeyDiffers platform (Phase.running sink, past) record) := by
  have hdate : (shouldRotateByDateLocked platform options record
      (formatted formatter record sink)).1 = true <->
        options.rotateDailyLocal = true ∧
          KeyDiffers platform (Phase.running sink, past) record :=
    shouldRotateByDateLocked_fst record _
  have hdue : Rotates platform options (Phase.running sink, past) record <->
      (rotationDue platform options record
        (formatted formatter record sink)).1 = true := Iff.rfl
  rw [pushesOver_iff hlive, hdue]
  unfold rotationDue
  split
  · rename_i hexceeds
    simp [hexceeds]
  · rename_i hexceeds
    rw [hdate, eq_false hexceeds, false_or]

/-!
## Every run of writes
-/

structure DayByDay (platform : Platform) (s : SinkRun formatter) : Prop where
  oneDay : Series.Each (OneDay platform) s.2.files
  /-- The last record is in the active file, and no day but its own. -/
  active : forall day, previousDay platform s.2 = some day <->
    exists entry, entry ∈ activeEntries s.2 ∧ entry.day platform = some day

theorem previousDay_step
    (hstep : (writing platform options formatter disk state).step s record =
      some s') :
    previousDay platform s'.2 = some (recordDay platform record) := by
  rcases writing_step hstep with ⟨_, entry, _, _, hrecord, _, hwritten, _⟩
  rw [previousDay, hwritten, List.getLast?_concat]
  show entry.record.map _ = _
  rw [hrecord]
  rfl

theorem oneDay_nil : OneDay platform [] :=
  fun _ _ _ _ h => absurd h List.not_mem_nil

theorem dayByDay_init :
    DayByDay platform
      (writing platform options formatter disk state).init := by
  have holder : Series.Each (fun file => forall entry, entry ∈ file ->
      entry.day platform = none)
        (writing platform options formatter disk state).init.2.files := by
    have hnil : forall entry : Entry, entry ∈ [] ->
        entry.day platform = none := fun _ h => absurd h List.not_mem_nil
    have hinitial : Series.Each (fun file => forall entry, entry ∈ file ->
        entry.day platform = none) (initialFiles options.path disk) := by
      intro k file hfile entry hentry
      rcases Option.map_eq_some_iff.mp hfile with ⟨text, _, rfl⟩
      rw [List.mem_singleton.mp hentry]
      rfl
    have hopened := Series.each_activate hnil options.append hinitial
    show Series.Each _ (if options.rotateAtStartup then _ else _)
    split
    · exact Series.each_rotate hnil options.append options.maxFiles hopened
    · exact hopened
  constructor
  · intro k file hfile entry other day otherDay hentry _ hday _
    rw [holder k file hfile entry hentry] at hday
    cases hday
  · intro day
    constructor
    · intro h
      cases h
    · rintro ⟨entry, hentry, hday⟩
      unfold activeEntries at hentry
      cases hfile : (writing platform options formatter disk
          state).init.2.files 0 with
      | none =>
          rw [hfile] at hentry
          exact absurd hentry List.not_mem_nil
      | some file =>
          rw [hfile] at hentry
          rw [holder 0 file hfile entry hentry] at hday
          cases hday

theorem days_step (h : DayByDay platform s)
    (hexactly : Rotates platform options s record <->
      PushesOver options s record ∨ DayChanges platform s record)
    (hstep : (writing platform options formatter disk state).step s record =
      some s') :
    Series.Each (OneDay platform) s'.2.files ∧
      forall day, previousDay platform s'.2 = some day <->
        exists entry, entry ∈ activeEntries s'.2 ∧
          entry.day platform = some day := by
  rcases writing_step hstep with
    ⟨sink, entry, _, _, hrecord, _, _, hfiles⟩
  have hentry : entry.day platform = some (recordDay platform record) := by
    rw [Entry.day, hrecord]
    rfl
  -- Without a rotation the entries before it have the day of the record.
  have hactive : exists before,
      s'.2.files 0 = some (before ++ [entry]) ∧
        forall older day, older ∈ before -> older.day platform = some day ->
          day = recordDay platform record := by
    rw [hfiles, Series.extend, Directory.store_self]
    split
    · refine ⟨[], ?_, fun _ _ h => absurd h List.not_mem_nil⟩
      rw [rotateSeries, Series.rotate_zero]
      rfl
    · rename_i hstays
      refine ⟨_, rfl, ?_⟩
      intro older day hmem hday
      have hlast := (h.active day).mpr ⟨older, hmem, hday⟩
      by_contra hne
      exact hstays (hexactly.mpr (Or.inr ⟨day, hlast, fun heq => hne heq.symm⟩))
  rcases hactive with ⟨before, hzero, hbefore⟩
  have hall : forall older day, older ∈ before ++ [entry] ->
      older.day platform = some day -> day = recordDay platform record := by
    intro older day hmem hday
    rcases List.mem_append.mp hmem with hmem | hmem
    · exact hbefore older day hmem hday
    · rw [List.mem_singleton.mp hmem, hentry, Option.some.injEq] at hday
      exact hday.symm
  constructor
  · intro k file hfile
    by_cases hk : k = 0
    · subst hk
      rw [hzero, Option.some.injEq] at hfile
      subst hfile
      intro first second day otherDay hfirst hsecond hday hotherDay
      rw [hall first day hfirst hday, hall second otherDay hsecond hotherDay]
    · rw [hfiles, Series.extend, Directory.store_of_ne _ _ hk] at hfile
      split at hfile
      · exact Series.each_rotate oneDay_nil options.append options.maxFiles
          h.oneDay k file hfile
      · exact h.oneDay k file hfile
  · intro day
    rw [previousDay_step hstep, activeEntries, hzero, Option.some.injEq]
    constructor
    · rintro rfl
      exact ⟨entry, by simp, hentry⟩
    · rintro ⟨older, hmem, hday⟩
      exact (hall older day hmem hday).symm

theorem recorded_init :
    Recorded options disk
      (writing platform options formatter disk state).init.1
      (writing platform options formatter disk state).init.2 := by
  have hstep : SinkStep platform options formatter (Phase.stopped disk)
      (Call.construct {} state) _ := SinkStep.construct disk {} state
  refine recorded_step ?_ rfl hstep
  refine ⟨fun s heq => ?_, (project_initialFiles _ _).symm, fun _ _ => rfl⟩
  cases heq

theorem recorded_writing (hrecorded : Recorded options disk s.1 s.2)
    (hstep : (writing platform options formatter disk state).step s record =
      some s') :
    Recorded options disk s'.1 s'.2 := by
  rcases sinkHistory_step hstep with ⟨hcall, hpast⟩
  rw [hpast]
  exact recorded_step hrecorded rfl hcall

/-!
## The remembered day

It is a number that stands for a day, or -1.
-/

def dateKey (day : LocalDate) : Int :=
  day.year * 1000 + (day.yearDay.val : Int)

theorem dateKey_injective : Function.Injective dateKey := by
  intro day other h
  unfold dateKey at h
  have hday := day.yearDay.isLt
  have hother := other.yearDay.isLt
  have hyear : day.year = other.year := by omega
  have hyearDay : day.yearDay = other.yearDay := Fin.ext (by omega)
  cases day
  cases other
  cases hyear
  cases hyearDay
  rfl

theorem dateKey_ne (day : LocalDate) : dateKey day ≠ -1 := by
  unfold dateKey
  have hday := day.yearDay.isLt
  omega

structure Remembers (platform : Platform) (options : RotatingFileSinkOptions)
    (disk : Disk) (s : SinkRun formatter × Option LocalDate) : Prop where
  recorded : Recorded options disk s.1.1 s.1.2
  key : lastLocalDateKey s.1.1 = (s.2.map dateKey).getD (-1)
  /-- Nothing is remembered before the first record. -/
  unset : previousDay platform s.1.2 = none -> s.2 = none

section

variable {s s' : SinkRun formatter × Option LocalDate}

theorem Remembers.keyDiffers_iff (h : Remembers platform options disk s)
    (record : LogRecordView) :
    KeyDiffers platform s.1 record <->
      exists day, s.2 = some day ∧ day ≠ recordDay platform record := by
  have hrecord : makeLocalDateKey platform record.timestampEpochNanoseconds =
      dateKey (recordDay platform record) := rfl
  unfold KeyDiffers
  rw [h.key, hrecord]
  cases s.2 with
  | none => simp
  | some day =>
      rw [Option.map_some, Option.getD_some, dateKey_injective.ne_iff]
      simp [dateKey_ne, ne_comm]

theorem remembers_init :
    Remembers platform options disk
      (testing platform options formatter disk state).init := by
  refine ⟨recorded_init, ?_, fun _ => rfl⟩
  show (construct platform options {} state disk).lastLocalDateKey = -1
  unfold construct rotateLocked openFileLocked
  dsimp only
  split <;> rfl

theorem Remembers.step (hdaily : options.rotateDailyLocal = true)
    (h : Remembers platform options disk s)
    (hstep : (testing platform options formatter disk state).step s record =
      some s') :
    Remembers platform options disk s' := by
  rcases Machine.recording_step hstep with ⟨hwrite, htested⟩
  rcases writing_step hwrite with ⟨sink, _, hphase, _, _, hphase', _⟩
  refine ⟨recorded_writing h.recorded hwrite, ?_, fun hnone => ?_⟩
  · have hlive := h.recorded.live sink hphase
    have hkey := h.key
    rw [hphase] at hkey
    have hover : PushesOver options s.1 record <->
        exceedsMaxFileBytes options (formatted formatter record sink) =
          true := by
      rw [← @pushesOver_iff options formatter sink s.1.2 hlive, ← hphase]
    rw [hphase', htested, noteTested]
    show (RotatingFileSink.write platform options formatter {} record
      sink).lastLocalDateKey = _
    rw [lastLocalDateKey_write hlive hdaily]
    by_cases hexceeds : PushesOver options s.1 record
    · rw [if_pos hexceeds, if_pos (hover.mp hexceeds)]
      exact hkey
    · rw [if_neg hexceeds, if_neg (fun hsize => hexceeds (hover.mpr hsize))]
      rfl
  · rw [previousDay_step hwrite] at hnone
    cases hnone

/-!
## When a write follows the days
-/

theorem followsDays_iff (hdaily : options.rotateDailyLocal = true)
    (hremembers : Remembers platform options disk s)
    (h : DayByDay platform s.1)
    (hstep : (testing platform options formatter disk state).step s record =
      some s') :
    FollowsDays platform options s.1 record s'.1 <->
      ¬ Misled platform options s record := by
  have hwrite := (Machine.recording_step hstep).1
  rcases writing_step hwrite with ⟨sink, _, hphase, _⟩
  have hrotates : Rotates platform options s.1 record <->
      PushesOver options s.1 record ∨
        exists day, s.2 = some day ∧ day ≠ recordDay platform record := by
    rw [← hremembers.keyDiffers_iff record]
    rcases s with ⟨⟨phase, past⟩, tested⟩
    cases hphase
    rw [rotates_iff (hremembers.recorded.live sink rfl) record]
    simp only [hdaily, true_and]
  constructor
  · rintro hfollows ⟨hfits, ⟨hother, hlast⟩ | ⟨hsame, hchanges⟩⟩
    · rcases hfollows.exactly.mp (hrotates.mpr (Or.inr hother)) with
        hover | ⟨day, hday, hne⟩
      · exact hfits hover
      · rw [hlast, Option.some.injEq] at hday
        exact hne hday
    · rcases hrotates.mp (hfollows.exactly.mpr (Or.inr hchanges)) with
        hover | ⟨day, hday, hne⟩
      · exact hfits hover
      · exact hne (hsame day hday)
  · intro hled
    have hexactly : Rotates platform options s.1 record <->
        PushesOver options s.1 record ∨ DayChanges platform s.1 record := by
      rw [hrotates]
      by_cases hover : PushesOver options s.1 record
      · simp [hover]
      rw [eq_false hover, false_or, false_or]
      constructor
      · rintro ⟨tested, htested, hne⟩
        cases hlast : previousDay platform s.1.2 with
        | none =>
            rw [hremembers.unset hlast] at htested
            cases htested
        | some day =>
            refine ⟨day, hlast, fun heq =>
              hled ⟨hover, Or.inl ⟨⟨tested, htested, hne⟩, ?_⟩⟩⟩
            rw [hlast, heq]
      · intro hchanges
        by_contra hsame
        refine hled ⟨hover, Or.inr ⟨fun day hday => ?_, hchanges⟩⟩
        by_contra hne
        exact hsame ⟨day, hday, hne⟩
    refine ⟨hexactly, (days_step h hexactly hwrite).1, ?_⟩
    intro hsame hrotate
    rcases hexactly.mp hrotate with hover | ⟨day, hlast, hne⟩
    · exact hover
    · rcases (h.active day).mp hlast with ⟨entry, hentry, hday⟩
      exact absurd (hsame entry day hentry hday).symm hne

end

end

/--
The writes of a run follow the days as long as none is misled by the last record
that was within the limit.
-/
theorem daily_rotation_follows_days_iff (platform : Platform)
    (options : RotatingFileSinkOptions) (formatter : RecordFormatter)
    (disk : Disk) (state : formatter.State)
    (hdaily : options.rotateDailyLocal = true)
    (records : List LogRecordView) :
    (writing platform options formatter disk state).EachStep
        (FollowsDays platform options)
        (writing platform options formatter disk state).init records <->
      (testing platform options formatter disk state).EachStep
        (fun s record _ => ¬ Misled platform options s record)
        (testing platform options formatter disk state).init records := by
  have hwrites : (testing platform options formatter disk state).EachStep
      (fun s record s' => FollowsDays platform options s.1 record s'.1)
      (testing platform options formatter disk state).init records <->
        (writing platform options formatter disk state).EachStep
          (FollowsDays platform options)
          (writing platform options formatter disk state).init records :=
    Machine.recording_eachStep
  rw [← hwrites]
  refine @Machine.eachStep_iff_eachStep _ _ _
    (fun s => Remembers platform options disk s ∧ DayByDay platform s.1)
    _ _ ?_ ?_ _ records ⟨remembers_init, dayByDay_init⟩
  · rintro s record s' ⟨hremembers, hdays⟩ hstep
    exact followsDays_iff hdaily hremembers hdays hstep
  · rintro s record s' ⟨hremembers, hdays⟩ hstep hfollows
    rcases days_step hdays hfollows.exactly
      (Machine.recording_step hstep).1 with ⟨honeDay, hactive⟩
    exact ⟨hremembers.step hdaily hstep, honeDay, hactive⟩

/-!
## Records within the limit

As long as every record is within the limit, the last one of them is the last
record.  Without a limit each record is within it.
-/

section

variable {platform : Platform} {options : RotatingFileSinkOptions}
  {formatter : RecordFormatter} {disk : Disk} {state : formatter.State}

theorem not_misled_of_tested_last {s : SinkRun formatter × Option LocalDate}
    (hlast : s.2 = previousDay platform s.1.2) (record : LogRecordView) :
    ¬ Misled platform options s record := by
  rintro ⟨_, ⟨⟨day, hday, hne⟩, hprevious⟩ | ⟨hsame, day, hprevious, hne⟩⟩
  · rw [hlast, hprevious, Option.some.injEq] at hday
    exact hne hday.symm
  · rw [← hlast] at hprevious
    exact hne (hsame day hprevious).symm

theorem not_misled_of_fitting {records : List LogRecordView}
    (hfits : (testing platform options formatter disk state).EachStep
      (fun s record _ => ¬ PushesOver options s.1 record)
      (testing platform options formatter disk state).init records) :
    (testing platform options formatter disk state).EachStep
      (fun s record _ => ¬ Misled platform options s record)
      (testing platform options formatter disk state).init records := by
  refine @Machine.eachStep_of_eachStep _ _ _
    (fun s => s.2 = previousDay platform s.1.2) _ _ ?_ ?_ _ records rfl hfits
  · intro s record _ hlast _ _
    exact not_misled_of_tested_last hlast record
  · intro s record s' _ hstep hfit
    rcases Machine.recording_step hstep with ⟨hwrite, htested⟩
    rw [htested, previousDay_step hwrite]
    exact if_neg hfit

theorem fitting_without_limit (hlimit : options.maxFileBytes = 0)
    (records : List LogRecordView) :
    (testing platform options formatter disk state).EachStep
      (fun s record _ => ¬ PushesOver options s.1 record)
      (testing platform options formatter disk state).init records :=
  Machine.eachStep_of_forall
    (fun _ _ _ hover => absurd hover.1 (by simp [hlimit])) _ records

end

/-!
## A size limit and three records
-/

def NondecreasingDays (platform : Platform) : Prop :=
  forall earlier later : UInt64, earlier ≤ later ->
    makeLocalDateKey platform earlier ≤ makeLocalDateKey platform later

theorem smallPlatform_nondecreasingDays : NondecreasingDays smallPlatform := by
  have hseconds : forall t : UInt64,
      (t / 1000000000).toInt64.toInt.toNat = t.toNat / 1000000000 := by
    intro t
    have hlt := t.toNat_lt
    have hnat : (t / 1000000000).toBitVec.toNat = t.toNat / 1000000000 :=
      UInt64.toNat_div t 1000000000
    show (t / 1000000000).toBitVec.toInt.toNat = _
    rw [BitVec.toInt_eq_toNat_of_lt (by rw [hnat]; omega), hnat]
    rfl
  have hkey : forall t : UInt64, makeLocalDateKey smallPlatform t =
      (1970 + ((t.toNat / 1000000000 / 86400 / 365 : Nat) : Int)) * 1000 +
        ((t.toNat / 1000000000 / 86400 % 365 : Nat) : Int) := by
    intro t
    unfold makeLocalDateKey localDay smallPlatform
    simp only [hseconds, Option.getD_some]
  intro earlier later h
  rw [hkey, hkey]
  have hle := UInt64.le_iff_toNat_le.mp h
  omega

/-- The first record fits, the second is over the size, the third fits. -/
def threeRecords : List LogRecordView :=
  [{ message := ascii "aaaa" },
    { message := ascii "bb", timestampEpochNanoseconds := 86400000000000 },
    { message := ascii "c", timestampEpochNanoseconds := 86400000000000 }]

def dailyLog : RotatingFileSinkOptions where
  path := ascii "a"
  maxFileBytes := 5
  rotateDailyLocal := true

def emptyDisk : Disk := fun _ => none

theorem days_are_followed_without_limit :
    (writing smallPlatform { dailyLog with maxFileBytes := 0 } messageFormatter
        emptyDisk ()).EachStep
      (FollowsDays smallPlatform { dailyLog with maxFileBytes := 0 })
      (writing smallPlatform { dailyLog with maxFileBytes := 0 }
        messageFormatter emptyDisk ()).init
      threeRecords :=
  (daily_rotation_follows_days_iff smallPlatform
    { dailyLog with maxFileBytes := 0 } messageFormatter emptyDisk () rfl
    threeRecords).mpr
    (not_misled_of_fitting (fitting_without_limit rfl threeRecords))

/-- The third record rotates, though its day is that of the second one. -/
theorem size_rotation_misleads :
    NondecreasingDays smallPlatform ∧ emptyDisk (ascii "a") = none ∧
      (threeRecords.map fun record =>
        record.timestampEpochNanoseconds.toNat) = [0, 86400000000000,
          86400000000000] ∧
      ¬ (writing smallPlatform dailyLog messageFormatter emptyDisk
          ()).EachStep (FollowsDays smallPlatform dailyLog)
        (writing smallPlatform dailyLog messageFormatter emptyDisk ()).init
        threeRecords := by
  refine ⟨smallPlatform_nondecreasingDays, rfl, rfl, fun h => ?_⟩
  rcases (((h _ rfl).2 _ rfl).2 _ rfl).1.exactly.mp rfl with
    hover | ⟨day, hday, hne⟩
  · exact absurd hover.2 (by decide)
  · cases hday
    exact hne rfl

end Sinks
end NginLog
