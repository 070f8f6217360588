import NginLog.Sinks.DailyRotation

/-!
# The size limit

The sink counts the bytes of the active file and rotates before a record would
push the file over the limit.  So no file that it has written is over the
limit, unless a single record is, which then has a file of its own.
-/

namespace NginLog
namespace Sinks

open Foundation Record Formatting RotatingFileSink

/-- The file is not over the limit, or it is one record that is. -/
def WithinLimit (options : RotatingFileSinkOptions) (file : List Entry) :
    Prop :=
  (file.flatMap Entry.line).length ≤ options.maxFileBytes ∨
    exists entry, file = [entry] ∧ entry.record.isSome = true ∧
      options.maxFileBytes < entry.line.length

def FromBefore (options : RotatingFileSinkOptions) (start : Disk)
    (file : List Entry) : Prop :=
  exists k text, 1 ≤ k ∧ contents options.path start k = some text ∧
    file = [{ line := text }]

structure KeepsLimit (options : RotatingFileSinkOptions) (start : Disk)
    (files : Series Entry) : Prop where
  active : forall file, files 0 = some file -> WithinLimit options file
  each : Series.Each
    (fun file => FromBefore options start file ∨ WithinLimit options file)
    files

/-- The sink knows the length of the file at its path, buffered bytes too. -/
def CountsActiveFile (options : RotatingFileSinkOptions) {State : Type}
    (sink : RotatingFileSink State) : Prop :=
  exists file, sink.disk options.path = some file ∧
    sink.currentFileBytes = file.contents.length

section

variable {platform : Platform} {options : RotatingFileSinkOptions}
  {formatter : RecordFormatter} {start : Disk} {files : Series Entry}

theorem withinLimit_nil : WithinLimit options [] :=
  Or.inl (Nat.zero_le _)

theorem withinLimit_singleton {entry : Entry}
    (hrecord : entry.record.isSome = true) :
    WithinLimit options [entry] := by
  rcases Nat.lt_or_ge options.maxFileBytes entry.line.length with hover | hfits
  · exact Or.inr ⟨entry, rfl, hrecord, hover⟩
  · refine Or.inl ?_
    rw [List.flatMap_cons, List.flatMap_nil, List.append_nil]
    exact hfits

namespace KeepsLimit

theorem initial (habsent : start options.path = none) :
    KeepsLimit options start (initialFiles options.path start) := by
  have hnone : contents options.path start 0 = none := by
    rw [contents_path, habsent]
    rfl
  refine ⟨fun file hfile => ?_, fun k file hfile => Or.inl ?_⟩
  · rcases Option.map_eq_some_iff.mp hfile with ⟨text, htext, _⟩
    rw [hnone] at htext
    cases htext
  · rcases Option.map_eq_some_iff.mp hfile with ⟨text, htext, rfl⟩
    refine ⟨k, text, Nat.pos_of_ne_zero fun hzero => ?_, htext, rfl⟩
    rw [hzero, hnone] at htext
    cases htext

theorem activate (h : KeepsLimit options start files) :
    KeepsLimit options start (files.activate options.append) := by
  refine ⟨fun file hfile => ?_,
    Series.each_activate (Or.inr withinLimit_nil) options.append h.each⟩
  unfold Series.activate at hfile
  rw [Directory.store_self, Option.some.injEq] at hfile
  subst hfile
  split
  · cases hactive : files 0 with
    | none => exact withinLimit_nil
    | some active => exact h.active active hactive
  · exact withinLimit_nil

theorem rotate (h : KeepsLimit options start files) :
    KeepsLimit options start (rotateSeries options files) := by
  refine ⟨fun file hfile => ?_, Series.each_rotate (Or.inr withinLimit_nil)
    options.append options.maxFiles h.each⟩
  rw [rotateSeries, Series.rotate_zero, Option.some.injEq] at hfile
  exact hfile ▸ withinLimit_nil

theorem extend (h : KeepsLimit options start files) {entry : Entry}
    (hfile : WithinLimit options ((files 0).getD [] ++ [entry])) :
    KeepsLimit options start (files.extend [entry]) := by
  unfold Series.extend
  constructor
  · intro file hactive
    rw [Directory.store_self, Option.some.injEq] at hactive
    exact hactive ▸ hfile
  · intro k file hk
    by_cases hzero : k = 0
    · subst hzero
      rw [Directory.store_self, Option.some.injEq] at hk
      exact Or.inr (hk ▸ hfile)
    · rw [Directory.store_of_ne _ _ hzero] at hk
      exact h.each k file hk

theorem write {past : Past} {sink : RotatingFileSink formatter.State}
    (hlimit : options.maxFileBytes > 0) (hlive : Live options sink)
    (hfiles : contents options.path sink.disk = past.files.project Entry.line)
    (h : KeepsLimit options start past.files) (record : LogRecordView)
    {entry : Entry} (hrecord : entry.record = some record)
    (hentry : (Phase.running sink).entries (Call.write {} record) = [entry]) :
    KeepsLimit options start
      (Series.extend
        (if RotatingFileSink.rotates formatter platform options record sink then
          rotateSeries options past.files
        else
          past.files) [entry]) := by
  have hsome : entry.record.isSome = true := by
    rw [hrecord]
    rfl
  split
  · refine h.rotate.extend ?_
    rw [rotateSeries, Series.rotate_zero]
    exact withinLimit_singleton hsome
  · rename_i hstays
    refine h.extend (Or.inl ?_)
    have hfits : ¬ PushesOver options (Phase.running sink, past) record := by
      rw [pushesOver_iff hlive]
      intro hexceeds
      refine hstays ?_
      unfold RotatingFileSink.rotates rotationDue
      rw [if_pos hexceeds]
    have hlength : ((contents options.path sink.disk 0).getD []).length +
        ([entry].flatMap Entry.line).length ≤ options.maxFileBytes := by
      rw [← hentry]
      exact Nat.le_of_not_lt fun hover => hfits ⟨hlimit, hover⟩
    rw [hfiles, Series.getD_project] at hlength
    rw [List.flatMap_append, List.length_append]
    exact hlength

theorem step {phase phase' : Phase formatter.State} {past : Past}
    {call : Call formatter.State} (hlimit : options.maxFileBytes > 0)
    (hrecorded : Recorded options start phase past)
    (h : KeepsLimit options start past.files)
    (hstep : SinkStep platform options formatter phase call phase') :
    KeepsLimit options start
      (notePast platform options phase call phase' past).files := by
  cases hstep with
  | construct disk faults state =>
      show KeepsLimit options start
        (if options.rotateAtStartup then _ else _)
      split
      · exact h.activate.rotate
      · exact h.activate
  | destroy s => exact h
  | write s faults record =>
      exact h.write hlimit (hrecorded.live s rfl) hrecorded.files record rfl rfl
  | flush s => exact h
  | forceRotate s faults => exact h.rotate
  | reopen s faults => exact h.activate

end KeepsLimit

end

/--
In every run that starts at an absent path, a running sink knows the length of
the active file, and every file but those from before keeps to the limit.
-/
theorem size_limit_on_every_file (platform : Platform)
    (options : RotatingFileSinkOptions) (formatter : RecordFormatter)
    (start : Disk) (hlimit : options.maxFileBytes > 0)
    (habsent : start options.path = none)
    {s : Phase formatter.State × Past}
    (h : (sinkHistory platform options formatter start).ReachableUnder
      NoFaults s) :
    (forall sink, s.1 = Phase.running sink ->
      CountsActiveFile options sink) ∧
      contents options.path s.1.disk = s.2.files.project Entry.line ∧
      KeepsLimit options start s.2.files := by
  have hrecorded := reachable_recorded h
  refine ⟨fun sink hsink => (hrecorded.live sink hsink).size, hrecorded.files,
    ?_⟩
  refine (@Machine.recordingInvariantUnder _ _ _ _ _ _ NoFaults
    (fun phase past => Recorded options start phase past ∧
      KeepsLimit options start past.files) ?_ ?_ s h).2
  · refine ⟨⟨fun s heq => ?_, (project_initialFiles _ _).symm,
      fun _ _ => rfl⟩, KeepsLimit.initial habsent⟩
    cases heq
  · intro phase past call phase' _ hpast hfaults hstep
    have hsink := sinkStep_of_step hstep
    exact ⟨recorded_step hpast.1 hfaults hsink,
      hpast.2.step hlimit hpast.1 hsink⟩

/-- The second record alone exceeds the limit of five bytes. -/
def overlongTrace : List (Call messageFormatter.State) :=
  [ Call.construct {} (),
    Call.write {} { message := ascii "one" },
    Call.write {} { message := ascii "overlong" },
    Call.write {} { message := ascii "two" } ]

theorem overlong_run_keeps_limit :
    exists s, (sinkHistory smallPlatform smallLog messageFormatter
        emptyDisk).run overlongTrace = some s ∧
      KeepsLimit smallLog emptyDisk s.2.files := by
  have hrun : (sinkHistory smallPlatform smallLog messageFormatter
      emptyDisk).run overlongTrace = some _ := rfl
  have hnone : forall call, call ∈ overlongTrace -> call.faults = {} := by
    intro call hcall
    simp only [overlongTrace, List.mem_cons, List.not_mem_nil, or_false]
      at hcall
    rcases hcall with rfl | rfl | rfl | rfl <;> rfl
  exact ⟨_, hrun, (size_limit_on_every_file smallPlatform smallLog
    messageFormatter emptyDisk (by decide) rfl
    (Machine.reachableUnder_of_run hnone hrun)).2.2⟩

end Sinks
end NginLog
