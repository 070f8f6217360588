import NginLog.Context.Scopes
import NginLog.Record.Dispatch

/-!
# Attributes lost to cut keys

The merge compares keys after they were cut to the room that earlier texts left,
down to the empty key.  Two attributes given under different keys can then meet
under one cut key, and the later one takes the place of the earlier one without
being counted.
-/

namespace NginLog
namespace Record

open Foundation Context

def givenKeys (context : List ContextAttribute)
    (requested : List (LogAttribute Bytes)) : List Bytes :=
  context.map ContextAttribute.key ++ requested.map LogAttribute.key

/-- The merged copies, each with the key that it was given under. -/
def givenCopies (context : List ContextAttribute)
    (requested : List (LogAttribute Bytes)) :
    List (LogAttribute Bytes × Bytes) :=
  (mergedCopies context requested).zip (givenKeys context requested)

/-- The key that the merge compares. -/
def cutKey (copy : LogAttribute Bytes × Bytes) : Bytes :=
  copy.1.key

/--
The record holds what the merge leaves of the copies, the merge replaces
attributes only by attributes given under the same key, and the record accounts
for every key: by an attribute, or in its count of lost ones.
-/
structure NoSilentLoss (record : LogRecordView)
    (context : List ContextAttribute)
    (requested : List (LogAttribute Bytes)) : Prop where
  merged : record.attributes =
    (KeyedMerge.merge cutKey Config.MaxAttributes
      (givenCopies context requested)).1.map Prod.fst
  replacesOwn : KeyedMerge.OverwritesOwn cutKey Config.MaxAttributes Prod.snd
    ([], 0) (givenCopies context requested)
  accounted : (givenKeys context requested).toFinset.card ≤
    record.attributes.length + record.truncatedAttributeCount.toNat

/-- The cut keys that get one of the slots of the record. -/
def slotKeys (context : List ContextAttribute)
    (requested : List (LogAttribute Bytes)) : List Bytes :=
  KeyedMerge.kept Config.MaxAttributes
    ((mergedCopies context requested).map LogAttribute.key)

/-- No cut key with a slot stands for two keys. -/
def KeysStayApart (context : List ContextAttribute)
    (requested : List (LogAttribute Bytes)) : Prop :=
  forall first, first ∈ givenCopies context requested ->
    forall second, second ∈ givenCopies context requested ->
      cutKey first = cutKey second ->
        cutKey first ∈ slotKeys context requested -> first.2 = second.2

/-- The attributes that get no slot, in the builder or in the record. -/
def unplaced (context : List ContextAttribute)
    (requested : List (LogAttribute Bytes)) : Nat :=
  (requested.length - Config.MaxAttributes) +
    KeyedMerge.countOutside LogAttribute.key (slotKeys context requested)
      (mergedCopies context requested)

/-!
## Copies and their keys
-/

section

variable (context : List ContextAttribute)
  (requested : List (LogAttribute Bytes))

theorem mergedCopies_length :
    (mergedCopies context requested).length =
      context.length + min Config.MaxAttributes requested.length := by
  simp [mergedCopies, contextCopies, builderCopies]

theorem givenKeys_length :
    (givenKeys context requested).length =
      context.length + requested.length := by
  simp [givenKeys]

theorem givenCopies_fst :
    (givenCopies context requested).map Prod.fst =
      mergedCopies context requested := by
  apply List.map_fst_zip
  rw [mergedCopies_length, givenKeys_length]
  omega

theorem givenKeys_split :
    givenKeys context requested =
      givenKeys context (requested.take Config.MaxAttributes) ++
        (requested.drop Config.MaxAttributes).map LogAttribute.key := by
  rw [givenKeys, givenKeys, List.append_assoc, ← List.map_append,
    List.take_append_drop]

theorem givenCopies_snd :
    (givenCopies context requested).map Prod.snd =
      givenKeys context (requested.take Config.MaxAttributes) := by
  have hlength : (mergedCopies context requested).length =
      (givenKeys context (requested.take Config.MaxAttributes)).length := by
    rw [mergedCopies_length, givenKeys_length, List.length_take]
  have hzip : (mergedCopies context requested).zip
        (givenKeys context requested) =
      (mergedCopies context requested).zip
        (givenKeys context (requested.take Config.MaxAttributes)) := by
    rw [givenKeys_split, ← List.append_nil (mergedCopies context requested),
      List.zip_append hlength, List.zip_nil_left, List.append_nil,
      List.append_nil]
  rw [givenCopies, hzip]
  exact List.map_snd_zip (Nat.le_of_eq hlength.symm)

theorem givenCopies_cutKeys :
    (givenCopies context requested).map cutKey =
      (mergedCopies context requested).map LogAttribute.key := by
  rw [← givenCopies_fst, List.map_map]
  rfl

theorem merge_givenCopies :
    KeyedMerge.merge LogAttribute.key Config.MaxAttributes
        (mergedCopies context requested) =
      ((KeyedMerge.merge cutKey Config.MaxAttributes
          (givenCopies context requested)).1.map Prod.fst,
        (KeyedMerge.merge cutKey Config.MaxAttributes
          (givenCopies context requested)).2) := by
  rw [← givenCopies_fst]
  exact KeyedMerge.merge_map Prod.fst _

theorem slotKeys_length :
    (slotKeys context requested).length =
      (KeyedMerge.merge LogAttribute.key Config.MaxAttributes
        (mergedCopies context requested)).1.length := by
  rw [slotKeys, ← KeyedMerge.merge_keys, List.length_map]

theorem unplaced_eq :
    unplaced context requested =
      requested.length - Config.MaxAttributes +
        (KeyedMerge.merge LogAttribute.key Config.MaxAttributes
          (mergedCopies context requested)).2 := by
  rw [unplaced, KeyedMerge.merge_dropped, slotKeys]

theorem keysStayApart_iff :
    KeysStayApart context requested <->
      KeyedMerge.OverwritesOwn cutKey Config.MaxAttributes Prod.snd ([], 0)
        (givenCopies context requested) := by
  rw [KeyedMerge.overwritesOwn_iff, givenCopies_cutKeys]
  rfl

theorem givenKeys_card_le (h : KeysStayApart context requested) :
    (givenKeys context requested).toFinset.card ≤
      (slotKeys context requested).length + unplaced context requested := by
  have hcopies := KeyedMerge.card_tags_le
    ((keysStayApart_iff context requested).mp h)
  have hmerge := merge_givenCopies context requested
  rw [givenCopies_snd] at hcopies
  have hlate := List.toFinset_card_le
    ((requested.drop Config.MaxAttributes).map LogAttribute.key)
  rw [List.length_map, List.length_drop] at hlate
  rw [slotKeys_length, unplaced_eq, hmerge, List.length_map,
    givenKeys_split, List.toFinset_append]
  have hunion := Finset.card_union_le
    (givenKeys context (requested.take Config.MaxAttributes)).toFinset
    ((requested.drop Config.MaxAttributes).map LogAttribute.key).toFinset
  omega

end

/-!
## When no attribute is lost silently
-/

theorem no_silent_loss_iff (site : CallSite)
    (scopes : List (List ContextAttribute)) (callback : Callback) :
    NoSilentLoss (loggedRecord site (contextView scopes) callback)
        (contextView scopes) callback.requested <->
      KeysStayApart (contextView scopes) callback.requested ∧
        (unplaced (contextView scopes) callback.requested < 2 ^ 32 ∨
          (givenKeys (contextView scopes) callback.requested).toFinset.card ≤
            (slotKeys (contextView scopes) callback.requested).length +
              unplaced (contextView scopes) callback.requested % 2 ^ 32) := by
  generalize contextView scopes = context
  rcases loggedRecord_merged site context callback with ⟨hattributes, hcount⟩
  have hlength : (loggedRecord site context callback).attributes.length =
      (slotKeys context callback.requested).length := by
    rw [hattributes, slotKeys_length]
  have hmerged : (loggedRecord site context callback).attributes =
      (KeyedMerge.merge cutKey Config.MaxAttributes
        (givenCopies context callback.requested)).1.map Prod.fst := by
    rw [hattributes, merge_givenCopies]
  have htoNat :
      (loggedRecord site context callback).truncatedAttributeCount.toNat =
        unplaced context callback.requested % 2 ^ 32 := by
    rw [hcount, unplaced_eq, UInt32.toNat_ofNat']
  constructor
  · intro hcase
    rcases hcase with ⟨_, hown, haccounted⟩
    refine ⟨(keysStayApart_iff context callback.requested).mpr hown, ?_⟩
    rw [hlength, htoNat] at haccounted
    exact Or.inr haccounted
  · intro hcase
    rcases hcase with ⟨hapart, hwrap⟩
    refine ⟨hmerged, (keysStayApart_iff context callback.requested).mp hapart,
      ?_⟩
    rw [hlength, htoNat]
    rcases hwrap with hsmall | haccounted
    · rw [Nat.mod_eq_of_lt hsmall]
      exact givenKeys_card_le context callback.requested hapart
    · exact haccounted

def crowdedScopes : List (List ContextAttribute) :=
  [ [{ key := ascii "text"
       value := AttributeValue.text (List.replicate 508 97) }],
    [{ key := ascii "user", value := AttributeValue.int64 1 }],
    [{ key := ascii "job", value := AttributeValue.int64 2 }] ]

/--
Both later keys are cut to nothing, so one replaces the other: two attributes
are left of three, and none is counted lost.
-/
theorem crowded_scopes_lose_key :
    ¬ NoSilentLoss
      (loggedRecord {} (contextView crowdedScopes) { calls := [] })
      (contextView crowdedScopes) [] := by
  intro hcase
  rcases hcase with ⟨_, _, haccounted⟩
  exact absurd haccounted (by decide +kernel)

end Record
end NginLog
