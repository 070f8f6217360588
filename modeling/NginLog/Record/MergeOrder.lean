import NginLog.Record.LaterWins

/-!
# The order of the merge

When the dispatch storage takes all text of the context, the merge can be said
without a fold.  The record has the first different keys of the context and the
builder, in the order in which they arrive, and each with the last attribute
that came under it.  Attributes under any other key are counted, in a counter
of 32 bits that starts from the builder's own count.
-/

namespace NginLog
namespace Record

open Foundation

def firstKeys (given : List (LogAttribute Bytes)) : List Bytes :=
  (given.map LogAttribute.key).eraseDups.take Config.MaxAttributes

/-- The attributes that arrive under a key without a slot. -/
def crowdedOut (given : List (LogAttribute Bytes)) : Nat :=
  KeyedMerge.countOutside LogAttribute.key (firstKeys given) given

/-- The first different keys in order, each with its last attribute. -/
structure MergedInOrder (attributes given : List (LogAttribute Bytes)) :
    Prop where
  distinct : (attributes.map LogAttribute.key).Nodup
  keys : attributes.map LogAttribute.key = firstKeys given
  last : forall a, a ∈ attributes ->
    KeyedMerge.lastWith LogAttribute.key a.key given = some a

/--
The attributes are merged in order, and the count has grown by the number of
attributes that have no slot.
-/
def MergesAndCounts (record : LogRecordView) (context : List ContextAttribute)
    (builder : RecordBuilder) : Prop :=
  MergedInOrder record.attributes (occurrences context builder.attributes) ∧
    record.truncatedAttributeCount.toNat =
      builder.truncatedAttributeCount.toNat +
        crowdedOut (occurrences context builder.attributes)

theorem merge_mergedInOrder (given : List (LogAttribute Bytes)) :
    MergedInOrder
      (KeyedMerge.merge LogAttribute.key Config.MaxAttributes given).1
      given := by
  have hkeys := KeyedMerge.merge_keys LogAttribute.key Config.MaxAttributes
    given
  refine ⟨?_, ?_, fun a ha => (KeyedMerge.mem_merge_iff.mp ha).2⟩
  · rw [hkeys]
    exact KeyedMerge.nodup_kept _ _
  · rw [hkeys, KeyedMerge.kept_eq_take, firstKeys]

theorem merge_crowdedOut (given : List (LogAttribute Bytes)) :
    (KeyedMerge.merge LogAttribute.key Config.MaxAttributes given).2 =
      crowdedOut given := by
  rw [KeyedMerge.merge_dropped, KeyedMerge.kept_eq_take, crowdedOut, firstKeys]

/--
The record is merged in order, and its count is the one meant as far as a
counter of 32 bits can tell.
-/
theorem dispatched_in_order (site : CallSite)
    (context : List ContextAttribute) (builder : RecordBuilder)
    (hfits : Clip.total LogAttribute.textLength
      (context.map ContextAttribute.toLogAttribute) ≤
        Config.MaxAttrTextBytes * 2) :
    MergedInOrder (dispatchedRecord site context builder).attributes
        (occurrences context builder.attributes) ∧
      (dispatchedRecord site context builder).truncatedAttributeCount.toNat =
        (builder.truncatedAttributeCount.toNat +
          crowdedOut (occurrences context builder.attributes)) % 2 ^ 32 ∧
      (builder.truncatedAttributeCount.toNat +
          crowdedOut (occurrences context builder.attributes) < 2 ^ 32 ->
        MergesAndCounts (dispatchedRecord site context builder) context
          builder) := by
  have hmerged := mergeAttributes_merged context builder
  rw [contextCopies_of_fits hfits] at hmerged
  have horder : MergedInOrder (dispatchedRecord site context builder).attributes
      (occurrences context builder.attributes) := by
    rw [show (dispatchedRecord site context builder).attributes = _
      from hmerged.attributes]
    exact merge_mergedInOrder _
  have hcount :
      (dispatchedRecord site context builder).truncatedAttributeCount.toNat =
        (builder.truncatedAttributeCount.toNat +
          crowdedOut (occurrences context builder.attributes)) % 2 ^ 32 := by
    rw [show (dispatchedRecord site context builder).truncatedAttributeCount = _
      from hmerged.count, merge_crowdedOut, UInt32.toNat_add,
      UInt32.toNat_ofNat', Nat.add_mod_mod]
    rfl
  refine ⟨horder, hcount, fun hsmall => ⟨horder, ?_⟩⟩
  rw [hcount, Nat.mod_eq_of_lt hsmall]

def sharedContext : List ContextAttribute :=
  [ { key := ascii "a", value := AttributeValue.int64 1 },
    { key := ascii "b", value := AttributeValue.int64 2 } ]

def sharedBuilder : RecordBuilder where
  attributes :=
    [ { key := ascii "c", value := AttributeValue.int64 3 },
      { key := ascii "a", value := AttributeValue.int64 4
        kind := LogAttributeKind.tag },
      { key := ascii "c", value := AttributeValue.int64 5 } ]
  attributes_fit := by decide

theorem shared_in_order :
    MergesAndCounts (dispatchedRecord {} sharedContext sharedBuilder)
      sharedContext sharedBuilder :=
  (dispatched_in_order {} sharedContext sharedBuilder (by decide)).2.2
    (by decide)

/-!
## The counter wraps

Eight different keys take all slots of the builder, and each further call is
counted, up to the last value of the counter.  One more key, which the context
brings first, then loses the count.
-/

def floodCalls (extra : Nat) : Callback where
  calls :=
    (List.range 8).map (fun n => BuilderCall.attr [UInt8.ofNat (48 + n)]
      (ArgValue.unsigned 0)) ++
    List.replicate extra (BuilderCall.attr (ascii "k") (ArgValue.unsigned 0))

def floodKept : List (LogAttribute Bytes) :=
  (List.range 8).map fun n =>
    { key := [UInt8.ofNat (48 + n)], value := AttributeValue.uint64 0 }

theorem floodCalls_requested (extra : Nat) :
    (floodCalls extra).requested =
      floodKept ++ List.replicate extra
        { key := ascii "k", value := AttributeValue.uint64 0 } := by
  rw [Callback.requested, floodCalls, List.filterMap_append,
    List.filterMap_replicate]
  rfl

theorem floodCalls_build (extra : Nat) :
    (floodCalls extra).build.attributes = floodKept ∧
      (floodCalls extra).build.truncatedAttributeCount =
        UInt32.ofNat extra := by
  have hholds := (floodCalls extra).build_holds
  rw [floodCalls_requested] at hholds
  have hlength : floodKept.length = Config.MaxAttributes := rfl
  constructor
  · rw [hholds.attributes, builderCopies, List.take_left' hlength]
    decide
  · rw [hholds.count, List.length_append, List.length_replicate, hlength,
      Nat.add_sub_cancel_left]

def floodContext : List ContextAttribute :=
  [{ key := ascii "z", value := AttributeValue.int64 0 }]

/-- A builder that has counted all it can count loses count of the next one. -/
theorem flooded_count_wraps :
    Clip.total LogAttribute.textLength
        (floodContext.map ContextAttribute.toLogAttribute) ≤
      Config.MaxAttrTextBytes * 2 ∧
    ¬ MergesAndCounts
      (dispatchedRecord {} floodContext (floodCalls (2 ^ 32 - 1)).build)
      floodContext (floodCalls (2 ^ 32 - 1)).build := by
  refine ⟨by decide, ?_⟩
  intro hcase
  rcases hcase with ⟨_, hcount⟩
  rcases floodCalls_build (2 ^ 32 - 1) with ⟨hattributes, hbuilder⟩
  have hcrowded : crowdedOut (occurrences floodContext floodKept) = 1 := by
    decide
  rw [hattributes, hbuilder, hcrowded] at hcount
  have hrange := UInt32.toNat_lt
    (dispatchedRecord {} floodContext
      (floodCalls (2 ^ 32 - 1)).build).truncatedAttributeCount
  rw [hcount, UInt32.toNat_ofNat'] at hrange
  omega

end Record
end NginLog
