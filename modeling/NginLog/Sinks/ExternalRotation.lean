import NginLog.Foundation.Handle
import NginLog.Sinks.Retention

/-!
# External rotation

Between the calls on the sink another process renames files, removes them and
puts new ones in their places.  `DetectExternalRotationLocked` opens the path
again when it finds another file there, and does nothing when it finds none.
-/

namespace NginLog
namespace Sinks

open Foundation Record Formatting RotatingFileSink

def Faults.opensAll (faults : Faults) : Faults :=
  { faults with opening := fun _ => false }

/-- A sink on a disk that other processes change too. -/
structure SharedSink (State : Type) where
  sink : RotatingFileSink State
  /-- The name that the open file has now; `none` once it is deleted. -/
  location : Option Bytes

namespace SharedSink

/-!
## Calls
-/

section

variable (platform : Platform) (options : RotatingFileSinkOptions)

/-- Where the open file is after a step that may have opened the path. -/
def relocate (opened : Bool) (location : Option Bytes) : Option Bytes :=
  if opened then some options.path else location

variable {State : Type}

def ensureOpen (w : SharedSink State) : SharedSink State where
  sink := (RotatingFileSink.ensureOpen platform options false w.sink).2
  location := relocate options (!w.sink.fileOpen) w.location

def detectExternalRotationLocked (w : SharedSink State) : SharedSink State :=
  let detected := RotatingFileSink.detectExternalRotationLocked platform options
    false w.sink
  { sink := detected.2
    location := relocate options detected.1 w.location }

def rotateLocked (faults : Faults) (w : SharedSink State) :
    SharedSink State where
  sink := (RotatingFileSink.rotateLocked platform options faults.opensAll
    w.sink).2
  location := some options.path

def rotateIfDue (faults : Faults) (record : LogRecordView)
    (w : SharedSink State) : SharedSink State :=
  let due := rotationDue platform options record w.sink
  let w := { w with sink := due.2 }
  if due.1 then rotateLocked platform options faults w else w

def writeScratch (w : SharedSink State) : SharedSink State :=
  { w with
    sink := { w.sink with
      disk := w.sink.disk.amend w.location fun file =>
        { file with contents := file.contents ++ w.sink.scratch }
      currentFileBytes := w.sink.currentFileBytes + w.sink.scratch.length } }

variable (formatter : RecordFormatter)

def prepared (faults : Faults) (record : LogRecordView)
    (w : SharedSink formatter.State) : SharedSink formatter.State :=
  let w := { w with sink := formatted formatter record w.sink }
  let w := ensureOpen platform options w
  let w :=
    if options.detectExternalRotation then
      detectExternalRotationLocked platform options w
    else
      w
  ensureOpen platform options (rotateIfDue platform options faults record w)

def write (faults : Faults) (record : LogRecordView)
    (w : SharedSink formatter.State) : SharedSink formatter.State :=
  writeScratch (prepared platform options formatter faults record w)

def reopen (w : SharedSink State) : SharedSink State where
  sink := (RotatingFileSink.reopen platform options ({} : Faults) w.sink).2
  location := some options.path

def construct (faults : Faults) (state : State) (disk : Disk) :
    SharedSink State where
  sink := RotatingFileSink.construct platform options faults.opensAll state disk
  location := some options.path

end

/-!
## Other processes
-/

section

variable {State : Type}

def rename (source target : Bytes) (w : SharedSink State) : SharedSink State where
  sink := { w.sink with disk := w.sink.disk.rename source target }
  location := Directory.renamed w.sink.disk source target w.location

def remove (name : Bytes) (w : SharedSink State) : SharedSink State where
  sink := { w.sink with disk := w.sink.disk.remove name }
  location := Directory.released name w.location

def put (name : Bytes) (file : File) (w : SharedSink State) :
    SharedSink State where
  sink := { w.sink with disk := w.sink.disk.store name file }
  location := Directory.released name w.location

/--
The system gives two files that exist at one time different identities: the file
at the path has that of the open file only if it is the open file.
-/
def Distinct (options : RotatingFileSinkOptions) (w : SharedSink State) :
    Prop :=
  readPathIdentity w.sink.disk options.path = w.sink.identity ->
    w.location = some options.path

instance (options : RotatingFileSinkOptions) (w : SharedSink State) :
    Decidable (Distinct options w) :=
  inferInstanceAs (Decidable (_ -> _))

end

end SharedSink

/-!
## Runs
-/

/-- A call on the sink, or what another process does between two calls. -/
inductive SharedAct where
  | write (faults : Faults) (record : LogRecordView)
  | flush
  | forceRotate (faults : Faults)
  | reopen
  | rename (source target : Bytes)
  | remove (name : Bytes)
  | put (name : Bytes) (file : File)

def SharedAct.external : SharedAct -> Bool
  | rename _ _ => true
  | remove _ => true
  | put _ _ => true
  | _ => false

section

variable (platform : Platform) (options : RotatingFileSinkOptions)
  (formatter : RecordFormatter)

def SharedSink.next (w : SharedSink formatter.State) :
    SharedAct -> SharedSink formatter.State
  | SharedAct.write faults record =>
      SharedSink.write platform options formatter faults record w
  | SharedAct.flush => w
  | SharedAct.forceRotate faults =>
      SharedSink.rotateLocked platform options faults w
  | SharedAct.reopen => SharedSink.reopen platform options w
  | SharedAct.rename source target => SharedSink.rename source target w
  | SharedAct.remove name => SharedSink.remove name w
  | SharedAct.put name file => SharedSink.put name file w

/-- A sink that has been constructed on a disk that it shares. -/
def sharedSink (faults : Faults) (state : formatter.State) (disk : Disk) :
    Machine (SharedSink formatter.State) SharedAct where
  init := SharedSink.construct platform options faults state disk
  step := fun w act =>
    let w' := SharedSink.next platform options formatter w act
    if SharedSink.Distinct options w' then some w' else none

variable {formatter}

/-- The record that is written is the end of the file at the path. -/
def ReachesPath (w : SharedSink formatter.State) (act : SharedAct)
    (w' : SharedSink formatter.State) : Prop :=
  forall faults record, act = SharedAct.write faults record ->
    w'.location = some options.path ∧
      exists file, w'.sink.disk options.path = some file ∧
        (formatted formatter record w.sink).scratch <:+ file.contents

/-- Where the record is written, a file is at the path or is put there. -/
def FindsPath (w : SharedSink formatter.State) (act : SharedAct) : Prop :=
  forall faults record, act = SharedAct.write faults record ->
    (w.sink.disk options.path).isSome = true ∨
      rotates formatter platform options record w.sink = true

end

/-!
## The open file

After the test the open file is the one at the path, if there is one.  The date
test changes nothing but the remembered day.
-/

def File.identity (file : File) : FileIdentity where
  valid := true
  device := file.device
  inode := file.inode

theorem readPathIdentity_of_some {disk : Disk} {path : Bytes} {file : File}
    (h : disk path = some file) :
    readPathIdentity disk path = file.identity := by
  simp only [readPathIdentity, h]
  rfl

theorem readPathIdentity_of_none {disk : Disk} {path : Bytes}
    (h : disk path = none) :
    readPathIdentity disk path = {} := by
  simp only [readPathIdentity, h]

namespace SharedSink

structure Held {State : Type} (options : RotatingFileSinkOptions)
    (w : SharedSink State) : Prop where
  fileOpen : w.sink.fileOpen = true
  valid : w.sink.identity.valid = true
  holds : Directory.Holds (fun file => file.identity = w.sink.identity)
    w.sink.disk w.location
  distinct : Distinct options w

section

variable {platform : Platform} {options : RotatingFileSinkOptions}
  {State : Type} {w : SharedSink State}

theorem held_of_live {s : RotatingFileSink State} (h : Live options s) :
    Held options { sink := s, location := some options.path } := by
  rcases h.size with ⟨file, hfile, _⟩
  have hidentity := h.identity.trans (readPathIdentity_of_some hfile)
  constructor
  · exact h.fileOpen
  · rw [hidentity]
    rfl
  · rintro n ⟨⟩
    exact ⟨file, hfile, hidentity.symm⟩
  · exact fun _ => rfl

theorem held_rotateLocked (platform : Platform) (faults : Faults)
    (w : SharedSink State) :
    Held options (rotateLocked platform options faults w) :=
  held_of_live (live_rotateLocked platform rfl w.sink)

theorem held_construct (platform : Platform) (faults : Faults) (state : State)
    (disk : Disk) :
    Held options (construct platform options faults state disk) := by
  apply held_of_live
  unfold RotatingFileSink.construct
  dsimp only
  split
  · exact live_rotateLocked platform rfl _
  · exact live_openFileLocked platform _

theorem Held.ensureOpen (h : Held options w) (platform : Platform) :
    SharedSink.ensureOpen platform options w = w := by
  unfold SharedSink.ensureOpen RotatingFileSink.ensureOpen relocate
  rw [if_pos h.fileOpen, h.fileOpen]
  rfl

theorem Held.detect_of_other (h : Held options w) (platform : Platform)
    (hpresent : (w.sink.disk options.path).isSome = true)
    (hother : w.location ≠ some options.path) :
    detectExternalRotationLocked platform options w =
      { sink := (openFileLocked platform options false
          (closeFileLocked w.sink)).2
        location := some options.path } := by
  rcases Option.isSome_iff_exists.mp hpresent with ⟨file, hfile⟩
  have hpath := readPathIdentity_of_some hfile
  have hne : ¬ (w.sink.identity.device = file.identity.device ∧
      w.sink.identity.inode = file.identity.inode) := by
    rintro ⟨hdevice, hinode⟩
    apply hother (h.distinct _)
    rw [hpath, FileIdentity.mk.injEq]
    exact ⟨h.valid.symm, hdevice.symm, hinode.symm⟩
  have hvalid : ¬ (w.sink.identity.valid = false ∨
      file.identity.valid = false) := by
    simp [h.valid, File.identity]
  unfold detectExternalRotationLocked
    RotatingFileSink.detectExternalRotationLocked
  simp only [hpath, if_neg hvalid, if_neg hne]
  rfl

theorem Held.detect_of_same (h : Held options w) (platform : Platform)
    (hsame : (w.sink.disk options.path).isSome = true ->
      w.location = some options.path) :
    detectExternalRotationLocked platform options w = w := by
  have hstays : RotatingFileSink.detectExternalRotationLocked platform options
      false w.sink = (false, w.sink) := by
    unfold RotatingFileSink.detectExternalRotationLocked
    dsimp only
    cases hfile : w.sink.disk options.path with
    | none =>
        rw [readPathIdentity_of_none hfile]
        exact if_pos (Or.inr rfl)
    | some file =>
        rcases h.holds _ (hsame (by rw [hfile]; rfl)) with
          ⟨held, hheld, hidentity⟩
        rw [readPathIdentity_of_some hheld, hidentity]
        simp
  unfold detectExternalRotationLocked relocate
  rw [hstays]
  rfl

theorem Held.detect (h : Held options w) (platform : Platform) :
    Held options (detectExternalRotationLocked platform options w) ∧
      (detectExternalRotationLocked platform options w).location =
        if (w.sink.disk options.path).isSome then
          some options.path
        else
          w.location := by
  by_cases hother : (w.sink.disk options.path).isSome = true ∧
      w.location ≠ some options.path
  · rw [h.detect_of_other platform hother.1 hother.2, if_pos hother.1]
    exact ⟨held_of_live (live_openFileLocked platform _), rfl⟩
  · have hsame : (w.sink.disk options.path).isSome = true ->
        w.location = some options.path :=
      fun hpresent => not_not.mp fun hne => hother ⟨hpresent, hne⟩
    rw [h.detect_of_same platform hsame]
    constructor
    · exact h
    · split
      · rename_i hpresent
        exact hsame hpresent
      · rfl

theorem Held.rotateIfDue (h : Held options w) (platform : Platform)
    (faults : Faults) (record : LogRecordView) :
    Held options
        (SharedSink.rotateIfDue platform options faults record w) ∧
      (SharedSink.rotateIfDue platform options faults record w).location =
        if (rotationDue platform options record w.sink).1 then
          some options.path
        else
          w.location := by
  unfold SharedSink.rotateIfDue
  dsimp only
  split
  · exact ⟨held_rotateLocked platform faults _, rfl⟩
  · rcases rotationDue_snd platform record w.sink with ⟨key, heq⟩
    rw [heq]
    exact ⟨⟨h.fileOpen, h.valid, h.holds, h.distinct⟩, rfl⟩

variable {formatter : RecordFormatter} {w : SharedSink formatter.State}

theorem Held.formatted (h : Held options w) (record : LogRecordView) :
    Held options
      { w with sink := RotatingFileSink.formatted formatter record w.sink } :=
  ⟨h.fileOpen, h.valid, h.holds, h.distinct⟩

theorem Held.prepared (h : Held options w) (platform : Platform)
    (hdetect : options.detectExternalRotation = true) (faults : Faults)
    (record : LogRecordView) :
    Held options
        (SharedSink.prepared platform options formatter faults record w) ∧
      (SharedSink.prepared platform options formatter faults record
          w).location =
        if (w.sink.disk options.path).isSome = true ∨
            rotates formatter platform options record w.sink = true then
          some options.path
        else
          w.location := by
  have hformatted := h.formatted record
  rcases hformatted.detect platform with ⟨hdetected, hlocation⟩
  rcases hdetected.rotateIfDue platform faults record with ⟨hheld, hrotated⟩
  unfold SharedSink.prepared
  dsimp only
  rw [hformatted.ensureOpen platform, if_pos hdetect,
    hheld.ensureOpen platform]
  refine ⟨hheld, hrotated.trans ?_⟩
  rw [hlocation]
  by_cases hpresent : (w.sink.disk options.path).isSome = true
  · have hformattedPresent : ((RotatingFileSink.formatted formatter record
        w.sink).disk options.path).isSome = true := hpresent
    simp only [hformattedPresent, hpresent, if_true, true_or, ite_self]
  · rw [hformatted.detect_of_same platform
      fun hformattedPresent => absurd hformattedPresent hpresent]
    have habsent : ¬ ((RotatingFileSink.formatted formatter record
        w.sink).disk options.path).isSome = true := hpresent
    simp only [habsent, hpresent, Bool.false_eq_true, if_false, false_or]
    rfl

theorem scratch_prepared (platform : Platform)
    (options : RotatingFileSinkOptions) (faults : Faults)
    (record : LogRecordView) (w : SharedSink formatter.State) :
    (SharedSink.prepared platform options formatter faults record
        w).sink.scratch =
      (RotatingFileSink.formatted formatter record w.sink).scratch := by
  have hensure : forall w : SharedSink formatter.State,
      (SharedSink.ensureOpen platform options w).sink.scratch =
        w.sink.scratch := by
    intro w
    unfold SharedSink.ensureOpen RotatingFileSink.ensureOpen openFileLocked
    dsimp only
    split <;> rfl
  have hdetect : forall w : SharedSink formatter.State,
      (detectExternalRotationLocked platform options w).sink.scratch =
        w.sink.scratch := by
    intro w
    unfold detectExternalRotationLocked
      RotatingFileSink.detectExternalRotationLocked
    dsimp only
    split
    · rfl
    · split <;> rfl
  have hrotate : forall w : SharedSink formatter.State,
      (SharedSink.rotateIfDue platform options faults record w).sink.scratch =
        w.sink.scratch := by
    intro w
    rcases rotationDue_snd platform record w.sink with ⟨key, heq⟩
    unfold SharedSink.rotateIfDue
    dsimp only
    rw [heq]
    split <;> rfl
  unfold SharedSink.prepared
  dsimp only
  rw [hensure, hrotate]
  split
  · rw [hdetect, hensure]
  · rw [hensure]

theorem Held.writeScratch {w : SharedSink formatter.State}
    (h : Held options w) :
    Held options (SharedSink.writeScratch w) := by
  constructor
  · exact h.fileOpen
  · exact h.valid
  · exact Directory.holds_amend (fun _ hidentity => hidentity) h.holds
  · intro hidentity
    apply h.distinct
    refine Eq.trans ?_ hidentity
    cases hlocation : w.location with
    | none =>
        simp only [SharedSink.writeScratch, hlocation]
        rfl
    | some n =>
        rcases h.holds n hlocation with ⟨file, hfile, _⟩
        simp only [SharedSink.writeScratch, hlocation]
        rw [Directory.amend_of_some hfile]
        by_cases hn : options.path = n
        · rw [hn, readPathIdentity_of_some hfile,
            readPathIdentity_of_some (Directory.store_self ..)]
          rfl
        · unfold readPathIdentity
          rw [Directory.store_of_ne _ _ hn]

theorem ensureOpen_opens {State : Type} (platform : Platform)
    (options : RotatingFileSinkOptions) (s : RotatingFileSink State) :
    RotatingFileSink.ensureOpen platform options false s =
      (true, (RotatingFileSink.ensureOpen platform options false s).2) := by
  unfold RotatingFileSink.ensureOpen
  split <;> rfl

theorem writeScratch_at_path {State : Type}
    {options : RotatingFileSinkOptions} {w : SharedSink State}
    (hpath : w.location = some options.path) :
    (SharedSink.writeScratch w).sink =
      RotatingFileSink.writeScratch options w.sink := by
  simp only [SharedSink.writeScratch, RotatingFileSink.writeScratch, hpath,
    Directory.amend]
  cases w.sink.disk options.path <;> rfl

theorem sink_write (platform : Platform) (options : RotatingFileSinkOptions)
    (faults : Faults) (record : LogRecordView)
    (w : SharedSink formatter.State)
    (hpath : (SharedSink.prepared platform options formatter faults record
      w).location = some options.path) :
    (SharedSink.write platform options formatter faults record w).sink =
      RotatingFileSink.write platform options formatter faults.opensAll record
        w.sink := by
  have hfirst : faults.opensAll.opening OpenSite.first = false := rfl
  have hexternal : faults.opensAll.opening OpenSite.external = false := rfl
  have hlast : faults.opensAll.opening OpenSite.last = false := rfl
  have hprepare : RotatingFileSink.prepare platform options formatter
      faults.opensAll record w.sink =
        (true, (if options.detectExternalRotation then
            detectExternalRotationLocked platform options
              (SharedSink.ensureOpen platform options
                { w with
                  sink := RotatingFileSink.formatted formatter record w.sink })
          else
            SharedSink.ensureOpen platform options
              { w with
                sink := RotatingFileSink.formatted formatter record
                  w.sink }).sink) := by
    unfold RotatingFileSink.prepare
    dsimp only
    rw [hfirst, hexternal, ensureOpen_opens]
    dsimp only
    split <;> rfl
  unfold SharedSink.write
  rw [writeScratch_at_path hpath]
  unfold RotatingFileSink.write
  rw [hprepare, hlast]
  dsimp only
  rw [ensureOpen_opens]
  unfold SharedSink.prepared SharedSink.rotateIfDue
  dsimp only
  generalize (if options.detectExternalRotation = true then _ else _) = v
  split <;> rfl

end

end SharedSink

/-!
## Every run
-/

section

open SharedSink

variable {platform : Platform} {options : RotatingFileSinkOptions}
  {formatter : RecordFormatter} {w w' : SharedSink formatter.State}
  {act : SharedAct}

theorem step_of_distinct {start : Faults} {state : formatter.State}
    {disk : Disk}
    (h : Distinct options (next platform options formatter w act)) :
    (sharedSink platform options formatter start state disk).step w act =
      some (next platform options formatter w act) :=
  if_pos h

theorem held_call (hdetect : options.detectExternalRotation = true)
    (h : Held options w) (hcall : act.external = false) :
    Held options (next platform options formatter w act) := by
  cases act with
  | write faults record =>
      exact (h.prepared platform hdetect faults record).1.writeScratch
  | flush => exact h
  | forceRotate faults => exact held_rotateLocked platform faults w
  | reopen => exact held_of_live (live_openFileLocked platform _)
  | rename source target => cases hcall
  | remove name => cases hcall
  | put name file => cases hcall

theorem held_next (hdetect : options.detectExternalRotation = true)
    (h : Held options w)
    (hdistinct : Distinct options (next platform options formatter w act)) :
    Held options (next platform options formatter w act) := by
  cases act with
  | rename source target =>
      exact ⟨h.fileOpen, h.valid,
        Directory.holds_rename h.holds source target, hdistinct⟩
  | remove name =>
      exact ⟨h.fileOpen, h.valid, Directory.holds_remove h.holds name,
        hdistinct⟩
  | put name file =>
      exact ⟨h.fileOpen, h.valid, Directory.holds_store h.holds name file,
        hdistinct⟩
  | write faults record => exact held_call hdetect h rfl
  | flush => exact held_call hdetect h rfl
  | forceRotate faults => exact held_call hdetect h rfl
  | reopen => exact held_call hdetect h rfl

theorem call_is_enabled (hdetect : options.detectExternalRotation = true)
    (h : Held options w) (hcall : act.external = false) (start : Faults)
    (state : formatter.State) (disk : Disk) :
    (sharedSink platform options formatter start state disk).step w act =
      some (next platform options formatter w act) :=
  step_of_distinct (held_call hdetect h hcall).distinct

theorem reachesPath_iff (hdetect : options.detectExternalRotation = true)
    (h : Held options w) :
    ReachesPath options w act (next platform options formatter w act) <->
      FindsPath platform options w act := by
  constructor
  · intro hreaches faults record hact
    subst hact
    have hlocation := (h.prepared platform hdetect faults record).2
    by_contra hfinds
    rw [if_neg hfinds] at hlocation
    have hpath := hlocation.symm.trans (hreaches faults record rfl).1
    rcases h.holds _ hpath with ⟨file, hfile, _⟩
    exact hfinds (Or.inl (by rw [hfile]; rfl))
  · intro hfinds faults record hact
    subst hact
    rcases h.prepared platform hdetect faults record with ⟨hheld, hlocation⟩
    rw [if_pos (hfinds faults record rfl)] at hlocation
    rcases hheld.holds _ hlocation with ⟨file, hfile, _⟩
    refine ⟨hlocation,
      { file with contents := file.contents ++
          (SharedSink.prepared platform options formatter faults record
            w).sink.scratch }, ?_, ?_⟩
    · show Directory.amend _ _ _ _ = _
      rw [hlocation, Directory.amend_of_some hfile, Directory.store_self]
    · rw [scratch_prepared]
      exact List.suffix_append ..

/-- The records reach the path unless one finds no file there and no rotation. -/
theorem writes_reach_path_iff (platform : Platform)
    (options : RotatingFileSinkOptions) (formatter : RecordFormatter)
    (start : Faults) (state : formatter.State) (disk : Disk)
    (hdetect : options.detectExternalRotation = true)
    (trace : List SharedAct) :
    let run := sharedSink platform options formatter start state disk
    run.EachStep (ReachesPath options) run.init trace <->
      run.EachStep (fun w act _ => FindsPath platform options w act) run.init
        trace := by
  have hstep : forall w act w', (sharedSink platform options formatter start
      state disk).step w act = some w' ->
        Distinct options w' ∧ w' = next platform options formatter w act := by
    intro w act w' h
    by_cases hdistinct : Distinct options (next platform options formatter w act)
    · cases (step_of_distinct hdistinct).symm.trans h
      exact ⟨hdistinct, rfl⟩
    · cases (if_neg hdistinct).symm.trans h
  have hinit : Held options (sharedSink platform options formatter start state
      disk).init := held_construct platform start state disk
  refine Machine.eachStep_iff_eachStep ?_ ?_ hinit
  · intro w act w' h hs
    rcases hstep w act w' hs with ⟨_, rfl⟩
    exact reachesPath_iff hdetect h
  · intro w act w' h hs _
    rcases hstep w act w' hs with ⟨hdistinct, rfl⟩
    exact held_next hdetect h hdistinct

end

/-!
## A file that is moved away
-/

def watchedLog : RotatingFileSinkOptions where
  path := ascii "a"
  detectExternalRotation := true

def replacedTrace : List SharedAct :=
  [SharedAct.write {} { message := ascii "one" },
    SharedAct.rename (ascii "a") (ascii "b"),
    SharedAct.put (ascii "a") { device := 1, inode := 5 },
    SharedAct.write {} { message := ascii "two" }]

theorem replaced_file_is_opened :
    (sharedSink smallPlatform watchedLog messageFormatter {} ()
        (fun _ => none)).EachStep (ReachesPath watchedLog)
      (sharedSink smallPlatform watchedLog messageFormatter {} ()
        (fun _ => none)).init
      replacedTrace := by
  refine (writes_reach_path_iff smallPlatform watchedLog messageFormatter {} ()
    (fun _ => none) rfl replacedTrace).mpr ?_
  refine Machine.EachStep.cons (step_of_distinct fun _ => rfl)
    (fun _ _ _ => Or.inl rfl) ?_
  refine Machine.EachStep.cons (step_of_distinct (by decide))
    (fun _ _ hact => by cases hact) ?_
  refine Machine.EachStep.cons (step_of_distinct (by decide))
    (fun _ _ hact => by cases hact) ?_
  exact Machine.EachStep.cons (step_of_distinct fun _ => rfl)
    (fun _ _ _ => Or.inl rfl) trivial

def movedTrace : List SharedAct :=
  [SharedAct.rename (ascii "a") (ascii "b"),
    SharedAct.write {} { message := ascii "two" }]

theorem moved_file_is_written :
    (exists w, (sharedSink smallPlatform watchedLog messageFormatter {} ()
        (fun _ => none)).run movedTrace = some w ∧
      w.sink.disk (ascii "a") = none ∧
      (w.sink.disk (ascii "b")).map File.contents = some (ascii "two")) ∧
    ¬ (sharedSink smallPlatform watchedLog messageFormatter {} ()
        (fun _ => none)).EachStep (ReachesPath watchedLog)
      (sharedSink smallPlatform watchedLog messageFormatter {} ()
        (fun _ => none)).init
      movedTrace := by
  refine ⟨⟨_, rfl, rfl, rfl⟩, fun h => ?_⟩
  have hpath := (((h _ rfl).2 _ rfl).1 {} _ rfl).1
  exact absurd (show some (ascii "b") = some (ascii "a") from hpath)
    (by decide)

end Sinks
end NginLog
