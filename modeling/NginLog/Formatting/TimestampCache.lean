import NginLog.Foundation.Mutex
import NginLog.Foundation.Transition
import NginLog.Formatting.RecordFormatter

/-!
# The timestamp cache

A text formatter keeps the texts of the last second that it has converted, and
its callers share them under a lock.  The texts are always those of the cached
second, from the second before the epoch on that no timestamp has.  So what a
call appends never depends on the calls before it, nor on those beside it.
-/

namespace NginLog
namespace Formatting

open Foundation Record

def secondOf (record : LogRecordView) : Int64 :=
  (record.timestampEpochNanoseconds / 1000000000).toInt64

def UsesCache (style : TimestampStyle) : Prop :=
  style = TimestampStyle.iso8601Utc ∨ style = TimestampStyle.iso8601Local

instance (style : TimestampStyle) : Decidable (UsesCache style) :=
  inferInstanceAs (Decidable (_ ∨ _))

/-- The cache is new, or its texts are those of its second. -/
def Coherent (runtime : Runtime) (style : TimestampStyle)
    (cache : TimestampCache) : Prop :=
  cache = {} ∨ cache.parts = fillCachedTimeParts runtime style cache.second

variable {runtime : Runtime} {style : TimestampStyle} {cache : TimestampCache}

/-!
## One lookup

No timestamp lies in the second that a new cache holds.
-/

theorem coherent_new : Coherent runtime style {} :=
  Or.inl rfl

theorem secondOf_ne (record : LogRecordView) : secondOf record ≠ -1 := by
  intro h
  have hnat := congrArg (fun second => second.toUInt64.toNat) h
  simp only [secondOf, UInt64.toUInt64_toInt64, UInt64.toNat_div] at hnat
  have hlast : (Int64.toUInt64 (-1)).toNat = 2 ^ 64 - 1 := by decide
  have hdivisor : (1000000000 : UInt64).toNat = 1000000000 := by decide
  have hbound := record.timestampEpochNanoseconds.toNat_lt
  rw [hlast, hdivisor] at hnat
  omega

theorem Coherent.parts_of_second (h : Coherent runtime style cache)
    {record : LogRecordView} (hsecond : cache.second = secondOf record) :
    cache.parts = fillCachedTimeParts runtime style (secondOf record) := by
  rcases h with rfl | hparts
  · exact absurd hsecond.symm (secondOf_ne record)
  · rw [hparts, hsecond]

theorem refresh_coherent (h : Coherent runtime style cache)
    (record : LogRecordView) :
    Coherent runtime style (cache.refresh runtime style (secondOf record)) ∧
      (UsesCache style ->
        (cache.refresh runtime style (secondOf record)).parts =
          fillCachedTimeParts runtime style (secondOf record)) := by
  unfold TimestampCache.refresh
  split
  · exact ⟨Or.inr rfl, fun _ => rfl⟩
  · rename_i hkept
    refine ⟨h, fun hstyle => h.parts_of_second ?_⟩
    by_contra hsecond
    exact hkept ⟨hstyle, hsecond⟩

theorem appendTimestamp_cached {record : LogRecordView}
    (h : UsesCache style ->
      cache.parts = fillCachedTimeParts runtime style (secondOf record)) :
    appendTimestamp runtime record.timestampEpochNanoseconds style
        cache.parts =
      appendTimestamp runtime record.timestampEpochNanoseconds style := by
  have hiso : UsesCache style ->
      isoTimestamp runtime record.timestampEpochNanoseconds style cache.parts =
        isoTimestamp runtime record.timestampEpochNanoseconds style
          ([], []) := by
    intro hstyle
    unfold isoTimestamp
    rw [h hstyle, secondOf]
    dsimp only
    rw [ite_self, if_pos ⟨rfl, rfl⟩]
  cases style with
  | iso8601Utc => exact hiso (Or.inl rfl)
  | iso8601Local => exact hiso (Or.inr rfl)
  | _ => rfl

/-!
## One call after another
-/

def formatUncached (runtime : Runtime) (options : TextRecordFormatterOptions)
    (record : LogRecordView) : Bytes :=
  textLine runtime options ([], []) record ++ ascii "\n"

variable {options : TextRecordFormatterOptions}

theorem textLine_cached {record : LogRecordView}
    (h : UsesCache options.timestampStyle -> cache.parts =
      fillCachedTimeParts runtime options.timestampStyle (secondOf record)) :
    textLine runtime options cache.parts record =
      textLine runtime options ([], []) record := by
  unfold textLine
  rw [appendTimestamp_cached h]

theorem formatText_coherent (h : Coherent runtime options.timestampStyle cache)
    (record : LogRecordView) :
    (formatText runtime options cache record).1 =
        formatUncached runtime options record ∧
      Coherent runtime options.timestampStyle
        (formatText runtime options cache record).2 := by
  rcases refresh_coherent h record with ⟨hcoherent, hparts⟩
  refine ⟨?_, hcoherent⟩
  show textLine runtime options (cache.refresh runtime options.timestampStyle
    (secondOf record)).parts record ++ _ = _
  rw [textLine_cached hparts, formatUncached]

theorem coherent_after (runtime : Runtime)
    (options : TextRecordFormatterOptions)
    (earlier : List (LogRecordView × Bytes)) :
    Coherent runtime options.timestampStyle
      ((textRecordFormatter runtime options).after earlier) := by
  induction earlier using List.reverseRecOn with
  | nil => exact coherent_new
  | append_singleton rest call ih =>
      unfold RecordFormatter.after
      rw [List.foldl_concat]
      exact (formatText_coherent ih call.1).2

/-!
## Calls beside each other

Callers meet at the lock of the cache.  Under it, a caller tests the cached
second, may replace the texts and then the second, and appends the timestamp.
-/

def textRest (runtime : Runtime) (options : TextRecordFormatterOptions)
    (record : LogRecordView) : Bytes :=
  ascii "][" ++
  record.level.name ++
  ascii "][" ++
  appendEscapedText record.loggerName ++
  ascii "] " ++
  appendEscapedText record.message ++
  appendTextAttributes runtime record.attributes ++
  (if record.truncatedAttributeCount > 0 ∨ record.truncatedBytes > 0 then
    ascii " [truncated attrs=" ++
    appendUnsigned record.truncatedAttributeCount.toUInt64 ++
    ascii ", bytes=" ++
    appendUnsigned record.truncatedBytes.toUInt64 ++
    ascii "]"
  else
    []) ++
  (if options.includeSource then
    ascii " (" ++
    appendEscapedText record.source.fileName ++
    ascii ":" ++
    appendUnsigned record.source.line.toUInt64 ++
    ascii ")"
  else
    []) ++
  ascii "\n"

def textStamp (runtime : Runtime) (options : TextRecordFormatterOptions)
    (cached : Bytes × Bytes) (record : LogRecordView) : Bytes :=
  ascii "[" ++
    appendTimestamp runtime record.timestampEpochNanoseconds
      options.timestampStyle cached

inductive FormatPc where
  | idle
  | waiting (record : LogRecordView)
  /-- Under the lock, before the test of the second. -/
  | locked (record : LogRecordView)
  /-- The texts are new, and the second is not yet. -/
  | filled (record : LogRecordView)
  /-- Before `AppendTimestamp`. -/
  | cached (record : LogRecordView)
  /-- Before the lock is released. -/
  | stamped (record : LogRecordView) (output : Bytes)
  | finishing (record : LogRecordView) (output : Bytes)

def FormatPc.inSection : FormatPc -> Bool
  | idle => false
  | waiting _ => false
  | locked _ => true
  | filled _ => true
  | cached _ => true
  | stamped _ _ => true
  | finishing _ _ => false

structure SharedFormatter (Thread : Type) where
  cacheMutex : Option Thread := none
  cache : TimestampCache := {}
  pcs : Thread -> FormatPc := fun _ => FormatPc.idle
  outputs : List (LogRecordView × Bytes) := []

inductive FormatAction (Thread : Type) where
  | call (thread : Thread) (record : LogRecordView)
  | proceed (thread : Thread)

section

variable {Thread : Type} [DecidableEq Thread]

def SharedFormatter.proceed (runtime : Runtime)
    (options : TextRecordFormatterOptions) (thread : Thread)
    (s : SharedFormatter Thread) :
    FormatPc -> Option (SharedFormatter Thread × FormatPc)
  | FormatPc.idle => none
  | FormatPc.waiting record =>
      match s.cacheMutex with
      | none =>
          some ({ s with cacheMutex := some thread }, FormatPc.locked record)
      | some _ => none
  | FormatPc.locked record =>
      if UsesCache options.timestampStyle ∧
          s.cache.second ≠ secondOf record then
        some
          ({ s with
              cache :=
                { s.cache with
                  parts := fillCachedTimeParts runtime options.timestampStyle
                    (secondOf record) } },
            FormatPc.filled record)
      else
        some (s, FormatPc.cached record)
  | FormatPc.filled record =>
      some
        ({ s with cache := { s.cache with second := secondOf record } },
          FormatPc.cached record)
  | FormatPc.cached record =>
      some (s, FormatPc.stamped record
        (textStamp runtime options s.cache.parts record))
  | FormatPc.stamped record output =>
      some ({ s with cacheMutex := none }, FormatPc.finishing record output)
  | FormatPc.finishing record output =>
      some
        ({ s with
            outputs := s.outputs ++
              [(record, output ++ textRest runtime options record)] },
          FormatPc.idle)

def SharedFormatter.setPc (s : SharedFormatter Thread) (thread : Thread)
    (pc : FormatPc) : SharedFormatter Thread :=
  { s with pcs := Function.update s.pcs thread pc }

def SharedFormatter.step (runtime : Runtime)
    (options : TextRecordFormatterOptions) (s : SharedFormatter Thread) :
    FormatAction Thread -> Option (SharedFormatter Thread)
  | FormatAction.call thread record =>
      match s.pcs thread with
      | FormatPc.idle => some (s.setPc thread (FormatPc.waiting record))
      | _ => none
  | FormatAction.proceed thread =>
      (s.proceed runtime options thread (s.pcs thread)).map
        fun next => next.1.setPc thread next.2

def sharedFormatter (Thread : Type) [DecidableEq Thread] (runtime : Runtime)
    (options : TextRecordFormatterOptions) :
    Machine (SharedFormatter Thread) (FormatAction Thread) where
  init := {}
  step := SharedFormatter.step runtime options

/-- What a caller's place says about the cache and its output. -/
def FormatPc.Right (runtime : Runtime) (options : TextRecordFormatterOptions)
    (cache : TimestampCache) : FormatPc -> Prop
  | filled record =>
      cache.parts = fillCachedTimeParts runtime options.timestampStyle
        (secondOf record)
  | cached record =>
      UsesCache options.timestampStyle ->
        cache.parts = fillCachedTimeParts runtime options.timestampStyle
          (secondOf record)
  | stamped record output =>
      output = textStamp runtime options ([], []) record
  | finishing record output =>
      output = textStamp runtime options ([], []) record
  | _ => True

def FormatPc.Fills : FormatPc -> Prop
  | filled _ => True
  | _ => False

structure CacheInvisible (runtime : Runtime)
    (options : TextRecordFormatterOptions) (s : SharedFormatter Thread) :
    Prop where
  exclusive : Exclusive (fun thread => (s.pcs thread).inSection) s.cacheMutex
  coherent : (forall thread, ¬ (s.pcs thread).Fills) ->
    Coherent runtime options.timestampStyle s.cache
  right : forall thread, (s.pcs thread).Right runtime options s.cache
  outputs : forall call, call ∈ s.outputs ->
    call.2 = formatUncached runtime options call.1

theorem textStamp_append_textRest (cached : Bytes × Bytes)
    (record : LogRecordView) :
    textStamp runtime options cached record ++
        textRest runtime options record =
      textLine runtime options cached record ++ ascii "\n" := by
  simp only [textStamp, textRest, textLine, List.append_assoc]

theorem FormatPc.Fills.inSection {pc : FormatPc} (h : pc.Fills) :
    pc.inSection = true := by
  cases pc with
  | filled record => rfl
  | _ => cases h

theorem FormatPc.Right.of_outside {pc : FormatPc} {cache' : TimestampCache}
    (h : pc.Right runtime options cache) (houtside : pc.inSection = false) :
    pc.Right runtime options cache' := by
  cases pc with
  | filled record => cases houtside
  | cached record => cases houtside
  | _ => exact h

namespace CacheInvisible

variable {s s' : SharedFormatter Thread} {thread : Thread}

theorem init (runtime : Runtime) (options : TextRecordFormatterOptions) :
    CacheInvisible runtime options
      (sharedFormatter Thread runtime options).init where
  exclusive := fun _ hinside => by cases hinside
  coherent := fun _ => coherent_new
  right := fun _ => trivial
  outputs := fun _ hcall => absurd hcall List.not_mem_nil

omit [DecidableEq Thread] in
theorem outside_of_ne (hs : CacheInvisible runtime options s)
    (hinside : (s.pcs thread).inSection = true) {other : Thread}
    (hother : other ≠ thread) :
    (s.pcs other).inSection = false := by
  cases hcase : (s.pcs other).inSection with
  | false => rfl
  | true => exact absurd (hs.exclusive.unique hcase hinside) hother

omit [DecidableEq Thread] in
theorem coherent_of_not_fills (hs : CacheInvisible runtime options s)
    (hfills : ¬ (s.pcs thread).Fills)
    (hothers : forall other, other ≠ thread -> ¬ (s.pcs other).Fills) :
    Coherent runtime options.timestampStyle s.cache := by
  refine hs.coherent fun other => ?_
  by_cases hother : other = thread
  · rw [hother]
    exact hfills
  · exact hothers other hother

omit [DecidableEq Thread] in
theorem coherent_of_inside (hs : CacheInvisible runtime options s)
    (hinside : (s.pcs thread).inSection = true)
    (hfills : ¬ (s.pcs thread).Fills) :
    Coherent runtime options.timestampStyle s.cache := by
  refine hs.coherent_of_not_fills hfills fun other hother hfilled => ?_
  have houtside := hs.outside_of_ne hinside hother
  rw [hfilled.inSection] at houtside
  cases houtside

theorem advance (hs : CacheInvisible runtime options s) {pc : FormatPc}
    {mutex : Option Thread} {cache' : TimestampCache}
    {outputs : List (LogRecordView × Bytes)}
    (hlock : LockStep thread (s.pcs thread).inSection pc.inSection s.cacheMutex
      mutex)
    (hcache : cache' = s.cache ∨ (s.pcs thread).inSection = true)
    (hcoherent : ¬ pc.Fills -> (forall other, other ≠ thread ->
      ¬ (s.pcs other).Fills) ->
        Coherent runtime options.timestampStyle cache')
    (hright : pc.Right runtime options cache')
    (houtputs : forall call, call ∈ outputs ->
      call.2 = formatUncached runtime options call.1) :
    CacheInvisible runtime options
      { cacheMutex := mutex
        cache := cache'
        pcs := Function.update s.pcs thread pc
        outputs := outputs } := by
  have hself : Function.update s.pcs thread pc thread = pc :=
    Function.update_self ..
  have hothers : forall other, other ≠ thread ->
      Function.update s.pcs thread pc other = s.pcs other := fun _ hother =>
    Function.update_of_ne hother ..
  refine ⟨?_, ?_, ?_, houtputs⟩
  · refine hs.exclusive.step thread ?_ fun other hother => ?_
    · show LockStep thread _ (Function.update s.pcs thread pc thread).inSection
        _ _
      rw [hself]
      exact hlock
    · show (Function.update s.pcs thread pc other).inSection = _
      rw [hothers other hother]
  · intro hnone
    refine hcoherent ?_ fun other hother => ?_
    · have hfills := hnone thread
      simp only [hself] at hfills
      exact hfills
    · have hfills := hnone other
      simp only [hothers other hother] at hfills
      exact hfills
  · intro other
    show (Function.update s.pcs thread pc other).Right runtime options cache'
    by_cases hother : other = thread
    · rw [hother, hself]
      exact hright
    · rw [hothers other hother]
      rcases hcache with rfl | hinside
      · exact hs.right other
      · exact (hs.right other).of_outside (hs.outside_of_ne hinside hother)

theorem call (hs : CacheInvisible runtime options s) {record : LogRecordView}
    (h : s.step runtime options (FormatAction.call thread record) = some s') :
    CacheInvisible runtime options s' := by
  simp only [SharedFormatter.step] at h
  split at h
  · rename_i hpc
    cases h
    have hfills : ¬ (s.pcs thread).Fills := by
      rw [hpc]
      exact id
    exact hs.advance (LockStep.of_eq (by rw [hpc]; rfl) rfl) (Or.inl rfl)
      (fun _ => hs.coherent_of_not_fills hfills) trivial hs.outputs
  · cases h

theorem proceed (hs : CacheInvisible runtime options s)
    (h : s.step runtime options (FormatAction.proceed thread) = some s') :
    CacheInvisible runtime options s' := by
  rcases Option.map_eq_some_iff.mp h with ⟨⟨next, pc⟩, hnext, rfl⟩
  have hright := hs.right thread
  -- A step that leaves the cache alone leaves it coherent.
  have hsame : ¬ (s.pcs thread).Fills ->
      (forall other, other ≠ thread -> ¬ (s.pcs other).Fills) ->
        Coherent runtime options.timestampStyle s.cache :=
    hs.coherent_of_not_fills
  cases hpc : s.pcs thread with
  | idle =>
      rw [hpc] at hnext
      cases hnext
  | waiting record =>
      rw [hpc] at hnext hsame
      simp only [SharedFormatter.proceed] at hnext
      split at hnext
      · rename_i hfree
        cases hnext
        exact hs.advance (by rw [hpc, hfree]; exact LockStep.acquire)
          (Or.inl rfl) (fun _ => hsame id) trivial hs.outputs
      · cases hnext
  | locked record =>
      have hinside : (s.pcs thread).inSection = true := by rw [hpc]; rfl
      have hcoherent := hs.coherent_of_inside hinside (by rw [hpc]; exact id)
      rw [hpc] at hnext hsame
      simp only [SharedFormatter.proceed] at hnext
      split at hnext
      · cases hnext
        exact hs.advance (by rw [hpc]; exact LockStep.keep) (Or.inr hinside)
          (fun hfills => absurd trivial hfills) rfl hs.outputs
      · rename_i hkept
        cases hnext
        refine hs.advance (by rw [hpc]; exact LockStep.keep) (Or.inl rfl)
          (fun _ => hsame id) (fun hstyle => ?_) hs.outputs
        refine hcoherent.parts_of_second ?_
        by_contra hsecond
        exact hkept ⟨hstyle, hsecond⟩
  | filled record =>
      have hinside : (s.pcs thread).inSection = true := by rw [hpc]; rfl
      rw [hpc] at hnext hright
      cases hnext
      exact hs.advance (by rw [hpc]; exact LockStep.keep) (Or.inr hinside)
        (fun _ _ => Or.inr hright) (fun _ => hright) hs.outputs
  | cached record =>
      rw [hpc] at hnext hright hsame
      cases hnext
      refine hs.advance (by rw [hpc]; exact LockStep.keep) (Or.inl rfl)
        (fun _ => hsame id) ?_ hs.outputs
      show textStamp runtime options s.cache.parts record = _
      rw [textStamp, appendTimestamp_cached hright, textStamp]
  | stamped record output =>
      rw [hpc] at hnext hright hsame
      cases hnext
      exact hs.advance (by rw [hpc]; exact LockStep.release) (Or.inl rfl)
        (fun _ => hsame id) hright hs.outputs
  | finishing record output =>
      rw [hpc] at hnext hright hsame
      cases hnext
      refine hs.advance (by rw [hpc]; exact LockStep.keep) (Or.inl rfl)
        (fun _ => hsame id) trivial ?_
      intro call hcall
      rcases List.mem_append.mp hcall with hold | hnew
      · exact hs.outputs call hold
      · rw [List.mem_singleton.mp hnew]
        show output ++ textRest runtime options record = _
        rw [show output = _ from hright, textStamp_append_textRest,
          formatUncached]

theorem reachable
    (h : (sharedFormatter Thread runtime options).Reachable s) :
    CacheInvisible runtime options s := by
  refine Machine.invariant (init runtime options) ?_ h
  intro s action s' _ hs hstep
  cases action with
  | call thread record => exact hs.call hstep
  | proceed thread => exact hs.proceed hstep

end CacheInvisible

theorem run_alone {s : SharedFormatter Thread} {thread : Thread}
    (hidle : s.pcs thread = FormatPc.idle) (hfree : s.cacheMutex = none)
    (record : LogRecordView) :
    exists count, (sharedFormatter Thread runtime options).runFrom s
        (FormatAction.call thread record ::
          List.replicate count (FormatAction.proceed thread)) =
      some
        { cacheMutex := none
          cache := (formatText runtime options s.cache record).2
          pcs := s.pcs
          outputs := s.outputs ++
            [(record, (formatText runtime options s.cache record).1)] } := by
  have hpcs : Function.update s.pcs thread FormatPc.idle = s.pcs := by
    rw [← hidle, Function.update_eq_self]
  have hwritten : (formatText runtime options s.cache record).1 =
      textStamp runtime options
          (formatText runtime options s.cache record).2.parts record ++
        textRest runtime options record :=
    (textStamp_append_textRest _ record).symm
  rw [hwritten]
  by_cases hstale : UsesCache options.timestampStyle ∧
      s.cache.second ≠ secondOf record
  · have hcache : (formatText runtime options s.cache record).2 =
        { second := secondOf record
          parts := fillCachedTimeParts runtime options.timestampStyle
            (secondOf record) } :=
      if_pos hstale
    refine ⟨6, ?_⟩
    simp [Machine.runFrom_cons, sharedFormatter, SharedFormatter.step,
      SharedFormatter.proceed, SharedFormatter.setPc, hidle, hfree, hstale,
      hcache, hpcs, List.replicate]
  · have hcache : (formatText runtime options s.cache record).2 = s.cache :=
      if_neg hstale
    refine ⟨5, ?_⟩
    simp [Machine.runFrom_cons, sharedFormatter, SharedFormatter.step,
      SharedFormatter.proceed, SharedFormatter.setPc, hidle, hfree, hstale,
      hcache, hpcs, List.replicate]

end

/-!
## All formatters
-/

/-- The output opens with some text and the timestamp, converted anew. -/
def ShowsTimestamp (runtime : Runtime) (style : TimestampStyle)
    (opening : Bytes) (record : LogRecordView) (output : Bytes) : Prop :=
  exists rest, output = opening ++
    (appendTimestamp runtime record.timestampEpochNanoseconds style ++ rest)

theorem showsTimestamp_text (runtime : Runtime)
    (options : TextRecordFormatterOptions) (record : LogRecordView) :
    ShowsTimestamp runtime options.timestampStyle (ascii "[") record
      (formatUncached runtime options record) := by
  refine ⟨textRest runtime options record, ?_⟩
  rw [formatUncached, ← textStamp_append_textRest, textStamp,
    List.append_assoc]

theorem showsTimestamp_json (runtime : Runtime)
    (options : JsonRecordFormatterOptions) (record : LogRecordView) :
    ShowsTimestamp runtime options.timestampStyle
      (ascii "\x7b\"timestamp\":") record
      (formatJson runtime options record) := by
  have hname : ascii "\x7b\"timestamp\":" =
      123 :: (Json.quoted (ascii "timestamp") ++ [58]) := by
    decide
  rw [formatJson_eq, hname, Json.member]
  refine ⟨(memberTail runtime record).flatMap (44 :: ·) ++ [125] ++ [10], ?_⟩
  simp only [List.append_assoc, List.cons_append, List.nil_append]

theorem showsTimestamp_logFmt (runtime : Runtime)
    (options : LogFmtRecordFormatterOptions) (record : LogRecordView) :
    ShowsTimestamp runtime options.timestampStyle (ascii "ts=") record
      (formatLogFmt runtime options record) := by
  simp only [ShowsTimestamp, formatLogFmt, logFmtLine, List.append_assoc]
  exact ⟨_, rfl⟩

/--
Whatever calls came before it or run beside it, a call of `Format` writes what
a new formatter writes, and its timestamp is the one that the formatters without
a cache write in the same style.
-/
theorem timestamp_caching_is_invisible (Thread : Type) [DecidableEq Thread]
    (runtime : Runtime) (options : TextRecordFormatterOptions) :
    (forall earlier record output,
      (textRecordFormatter runtime options).outputAfter earlier record output =
        (textRecordFormatter runtime options).outputAfter [] record output) ∧
    (forall s, (sharedFormatter Thread runtime options).Reachable s ->
      forall call, call ∈ s.outputs -> forall output,
        call.2 =
          (textRecordFormatter runtime options).outputAfter [] call.1 output) ∧
    (forall record output,
      ShowsTimestamp runtime options.timestampStyle (ascii "[") record
        ((textRecordFormatter runtime options).outputAfter [] record output)) ∧
    (forall record, ShowsTimestamp runtime options.timestampStyle
      (ascii "\x7b\"timestamp\":") record
      (formatJson runtime { timestampStyle := options.timestampStyle }
        record)) ∧
    (forall includeSource record, ShowsTimestamp runtime options.timestampStyle
      (ascii "ts=") record
      (formatLogFmt runtime
        { includeSource := includeSource
          timestampStyle := options.timestampStyle } record)) := by
  have hfresh : forall record output,
      (textRecordFormatter runtime options).outputAfter [] record output =
        formatUncached runtime options record := fun record _ =>
    (formatText_coherent coherent_new record).1
  refine ⟨fun earlier record output => ?_, fun s hs call hcall output => ?_,
    fun record output => ?_, fun record => ?_, fun includeSource record => ?_⟩
  · rw [hfresh]
    exact (formatText_coherent (coherent_after runtime options earlier)
      record).1
  · rw [hfresh]
    exact (CacheInvisible.reachable hs).outputs call hcall
  · rw [hfresh]
    exact showsTimestamp_text runtime options record
  · exact showsTimestamp_json runtime _ record
  · exact showsTimestamp_logFmt runtime _ record

end Formatting
end NginLog
