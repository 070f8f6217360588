import Mathlib.Data.List.Forall2
import NginLog.Record.Dispatch

/-!
# The texts that a record cuts

Each attribute of a dispatched record is a copy of one that was given, with its
key and its text cut to the room that was left.  So is the message.
-/

namespace NginLog
namespace Record

open Foundation

/-!
## The message
-/

def BuilderCall.message? : BuilderCall -> Option Bytes
  | BuilderCall.message text => some text
  | BuilderCall.attr _ _ _ => none

/-- The message that the builder is given last. -/
def Callback.message (callback : Callback) : Bytes :=
  if callback.throws then
    ascii "[log-builder-threw]"
  else
    (callback.calls.filterMap BuilderCall.message?).getLast?.getD []

theorem RecordBuilder.message_foldl (calls : List BuilderCall)
    (builder : RecordBuilder) :
    (calls.foldl RecordBuilder.apply builder).message.bytes =
      (((calls.filterMap BuilderCall.message?).getLast?).map
        (List.take Config.MaxMessageBytes)).getD builder.message.bytes := by
  induction calls using List.reverseRecOn with
  | nil => rfl
  | append_singleton rest call ih =>
      rw [List.foldl_append, List.foldl_cons, List.foldl_nil,
        List.filterMap_append]
      cases call with
      | message text =>
          have hone : [BuilderCall.message text].filterMap
              BuilderCall.message? = [text] := rfl
          rw [hone, List.getLast?_concat]
          rfl
      | attr key value kind =>
          have hnone : [BuilderCall.attr key value kind].filterMap
              BuilderCall.message? = [] := rfl
          rw [hnone, List.append_nil, ← ih]
          unfold RecordBuilder.apply RecordBuilder.attr appendAttribute
          dsimp only
          split <;> rfl

theorem Callback.build_message (callback : Callback) :
    callback.build.message.bytes =
      callback.message.take Config.MaxMessageBytes := by
  unfold Callback.build Callback.message
  dsimp only
  split
  · rfl
  · rw [RecordBuilder.message_foldl]
    cases (callback.calls.filterMap BuilderCall.message?).getLast? with
    | none => rfl
    | some text => rfl

/-!
## The attributes
-/

namespace LogAttribute

def CutFrom (a given : LogAttribute Bytes) : Prop :=
  exists keyRoom valueRoom, a =
    { given with
      key := given.key.take keyRoom
      value := given.value.map (List.take valueRoom) }

theorem cutFrom_cutKeyFirst (room : Nat) (given : LogAttribute Bytes) :
    CutFrom (given.cutKeyFirst room) given :=
  ⟨_, _, rfl⟩

theorem cutFrom_cutValueFirst (room : Nat) (given : LogAttribute Bytes) :
    CutFrom (given.cutValueFirst room) given :=
  ⟨_, _, rfl⟩

end LogAttribute

def givenAttributes (context : List ContextAttribute)
    (requested : List (LogAttribute Bytes)) : List (LogAttribute Bytes) :=
  context.map ContextAttribute.toLogAttribute ++
    requested.take Config.MaxAttributes

def slotSources (context : List ContextAttribute)
    (requested : List (LogAttribute Bytes)) : List (LogAttribute Bytes) :=
  (KeyedMerge.merge (fun pair => LogAttribute.key pair.1) Config.MaxAttributes
    ((mergedCopies context requested).zip
      (givenAttributes context requested))).1.map Prod.snd

theorem forall₂_mergedCopies (context : List ContextAttribute)
    (requested : List (LogAttribute Bytes)) :
    List.Forall₂ LogAttribute.CutFrom (mergedCopies context requested)
      (givenAttributes context requested) := by
  unfold mergedCopies givenAttributes
  apply List.rel_append
  · exact Clip.forall₂_clip LogAttribute.cutFrom_cutKeyFirst _ _
  · exact Clip.forall₂_clip LogAttribute.cutFrom_cutValueFirst _ _

theorem forall₂_slotSources (site : CallSite) (context : List ContextAttribute)
    (callback : Callback) :
    List.Forall₂ LogAttribute.CutFrom
      (loggedRecord site context callback).attributes
      (slotSources context callback.requested) := by
  have hcut := forall₂_mergedCopies context callback.requested
  have hfst := List.map_fst_zip (Nat.le_of_eq hcut.length_eq)
  rw [(loggedRecord_merged site context callback).1, ← hfst,
    KeyedMerge.merge_map, slotSources, List.forall₂_map_left_iff,
    List.forall₂_map_right_iff, List.forall₂_same]
  rintro ⟨copy, given⟩ hpair
  have hlast := (KeyedMerge.mem_merge_iff.mp hpair).2
  exact List.forall₂_zip hcut (KeyedMerge.lastWith_some hlast).1

end Record
end NginLog
