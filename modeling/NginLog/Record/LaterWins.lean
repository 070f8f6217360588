import NginLog.Context.Scopes
import NginLog.Record.Dispatch

/-!
# The later value wins

A key may occur in several scopes and in several `Attr` calls.  When every text
is stored whole, the record should hold the last occurrence of each key.  The
builder has a slot for its first calls only, so a later call that repeats a key
is lost although it needs no slot of its own.
-/

namespace NginLog
namespace Record

open Foundation Context

/-- All attributes given for a record: outer scopes, inner scopes, `Attr` calls. -/
def occurrences (context : List ContextAttribute)
    (requested : List (LogAttribute Bytes)) : List (LogAttribute Bytes) :=
  context.map ContextAttribute.toLogAttribute ++ requested

/-- One attribute for each key, its last occurrence, and none counted lost. -/
def LaterWins (record : LogRecordView) (context : List ContextAttribute)
    (requested : List (LogAttribute Bytes)) : Prop :=
  KeyedMerge.LastOfEach LogAttribute.key (occurrences context requested)
      record.attributes ∧
    record.truncatedAttributeCount = 0

/--
The calls that find no slot change nothing: there are none, or their number is
a multiple of the range of the counter and what they give last for a key is what
was given last for it before them.
-/
def OverflowRepeats (context : List ContextAttribute)
    (requested : List (LogAttribute Bytes)) : Prop :=
  requested.length ≤ Config.MaxAttributes ∨
    (2 ^ 32 ∣ requested.length - Config.MaxAttributes ∧
      forall key,
        key ∈ (requested.drop Config.MaxAttributes).map LogAttribute.key ->
        KeyedMerge.lastWith LogAttribute.key key
            (requested.drop Config.MaxAttributes) =
          KeyedMerge.lastWith LogAttribute.key key
            (occurrences context (requested.take Config.MaxAttributes)))

/-!
## What is merged when all text fits
-/

theorem contextCopies_of_fits {context : List ContextAttribute}
    (h : Clip.total LogAttribute.textLength
      (context.map ContextAttribute.toLogAttribute) ≤
        Config.MaxAttrTextBytes * 2) :
    contextCopies context = context.map ContextAttribute.toLogAttribute :=
  Clip.clip_eq_self LogAttribute.cutKeyFirst_eq_self h

theorem builderCopies_of_fits {requested : List (LogAttribute Bytes)}
    (h : Clip.total LogAttribute.textLength requested ≤
      Config.MaxAttrTextBytes) :
    builderCopies requested = requested.take Config.MaxAttributes := by
  apply Clip.clip_eq_self LogAttribute.cutValueFirst_eq_self
  have hsplit := Clip.total_append LogAttribute.textLength
    (requested.take Config.MaxAttributes) (requested.drop Config.MaxAttributes)
  rw [List.take_append_drop] at hsplit
  omega

theorem occurrences_split (context : List ContextAttribute)
    (requested : List (LogAttribute Bytes)) :
    occurrences context requested =
      occurrences context (requested.take Config.MaxAttributes) ++
        requested.drop Config.MaxAttributes := by
  rw [occurrences, occurrences, List.append_assoc, List.take_append_drop]

theorem ofNat_eq_zero_iff (n : Nat) : UInt32.ofNat n = 0 <-> 2 ^ 32 ∣ n := by
  rw [← UInt32.toNat_inj, UInt32.toNat_ofNat', Nat.dvd_iff_mod_eq_zero]
  rfl

theorem loggedRecord_of_fits (site : CallSite)
    {context : List ContextAttribute} {callback : Callback}
    (hkeys : ((occurrences context callback.requested).map
      LogAttribute.key).toFinset.card ≤ Config.MaxAttributes)
    (hcontext : Clip.total LogAttribute.textLength
      (context.map ContextAttribute.toLogAttribute) ≤
        Config.MaxAttrTextBytes * 2)
    (hrequested : Clip.total LogAttribute.textLength callback.requested ≤
      Config.MaxAttrTextBytes) :
    KeyedMerge.LastOfEach LogAttribute.key
        (occurrences context (callback.requested.take Config.MaxAttributes))
        (loggedRecord site context callback).attributes ∧
      (loggedRecord site context callback).truncatedAttributeCount =
        UInt32.ofNat (callback.requested.length - Config.MaxAttributes) := by
  have hcard : ((occurrences context
      (callback.requested.take Config.MaxAttributes)).map
        LogAttribute.key).toFinset.card ≤ Config.MaxAttributes := by
    refine Nat.le_trans (Finset.card_le_card ?_) hkeys
    rw [occurrences_split context callback.requested, List.map_append,
      List.toFinset_append]
    exact Finset.subset_union_left
  rcases KeyedMerge.merge_of_card_le hcard with ⟨hlast, hdropped⟩
  rcases loggedRecord_merged site context callback with ⟨hattributes, hcount⟩
  rw [mergedCopies, contextCopies_of_fits hcontext,
    builderCopies_of_fits hrequested] at hattributes hcount
  rw [hattributes, hcount]
  refine ⟨hlast, ?_⟩
  rw [show context.map ContextAttribute.toLogAttribute ++
      callback.requested.take Config.MaxAttributes =
        occurrences context (callback.requested.take Config.MaxAttributes)
      from rfl, hdropped, Nat.add_zero]

/-!
## When the later value wins
-/

theorem later_wins_iff (site : CallSite)
    (scopes : List (List ContextAttribute)) (callback : Callback)
    (hkeys : ((occurrences (contextView scopes) callback.requested).map
      LogAttribute.key).toFinset.card ≤ Config.MaxAttributes)
    (hcontext : Clip.total LogAttribute.textLength
      ((contextView scopes).map ContextAttribute.toLogAttribute) ≤
        Config.MaxAttrTextBytes * 2)
    (hrequested : Clip.total LogAttribute.textLength callback.requested ≤
      Config.MaxAttrTextBytes) :
    LaterWins (loggedRecord site (contextView scopes) callback)
        (contextView scopes) callback.requested <->
      OverflowRepeats (contextView scopes) callback.requested := by
  rcases loggedRecord_of_fits site hkeys hcontext hrequested with
    ⟨hlast, hcount⟩
  generalize contextView scopes = context at *
  rw [LaterWins, hcount, ofNat_eq_zero_iff, OverflowRepeats]
  rcases Nat.lt_or_ge Config.MaxAttributes callback.requested.length with
    hover | hroom
  · rw [or_iff_right (Nat.not_le_of_lt hover), and_comm]
    refine and_congr_right fun _ => ?_
    rw [occurrences_split context callback.requested]
    constructor
    · intro hall key hkey
      -- The last occurrence is in the record, so it is also the last early one.
      rcases KeyedMerge.exists_lastWith hkey with ⟨e, he⟩
      have hwhole : KeyedMerge.lastWith LogAttribute.key key
          (occurrences context
              (callback.requested.take Config.MaxAttributes) ++
            callback.requested.drop Config.MaxAttributes) = some e := by
        rw [KeyedMerge.lastWith_append, he, Option.some_or]
      have hekey := (KeyedMerge.lastWith_some he).2
      rw [← hekey] at hwhole ⊢
      rw [(hlast.mem_iff e).mp ((hall.mem_iff e).mpr hwhole), hekey, he]
    · intro hrepeats
      refine ⟨hlast.distinct, fun e => ?_⟩
      rw [hlast.mem_iff, KeyedMerge.lastWith_append]
      by_cases hlate : e.key ∈
          (callback.requested.drop Config.MaxAttributes).map LogAttribute.key
      · rw [hrepeats e.key hlate, Option.or_self]
      · rw [KeyedMerge.lastWith_eq_none hlate, Option.none_or]
  · rw [List.take_of_length_le hroom] at hlast
    rw [or_iff_left_of_imp fun _ => hroom, Nat.sub_eq_zero_of_le hroom]
    exact ⟨fun _ => hroom, fun _ => ⟨hlast, dvd_zero _⟩⟩

def keyScopes : List (List ContextAttribute) :=
  [ [{ key := ascii "k", value := AttributeValue.int64 0 }],
    [{ key := ascii "k", value := AttributeValue.int64 1 }] ]

def keyCall : Callback where
  calls := [BuilderCall.attr (ascii "k") (ArgValue.signed 2)
    LogAttributeKind.tag]

theorem key_call_wins :
    LaterWins (loggedRecord {} (contextView keyScopes) keyCall)
      (contextView keyScopes) keyCall.requested :=
  (later_wins_iff {} keyScopes keyCall (by decide) (by decide)
    (by decide)).mpr (Or.inl (by decide))

def nineCalls : Callback where
  calls := (List.range 9).map fun n =>
    BuilderCall.attr (ascii "k") (ArgValue.unsigned (UInt64.ofNat n))

/-- The ninth call repeats a key and is lost, and the record says so. -/
theorem ninth_call_is_lost :
    ((occurrences (contextView []) nineCalls.requested).map
        LogAttribute.key).toFinset.card ≤ Config.MaxAttributes ∧
      Clip.total LogAttribute.textLength
        ((contextView []).map ContextAttribute.toLogAttribute) ≤
          Config.MaxAttrTextBytes * 2 ∧
      Clip.total LogAttribute.textLength nineCalls.requested ≤
        Config.MaxAttrTextBytes ∧
      ¬ LaterWins
        (loggedRecord {} (contextView []) nineCalls)
        (contextView []) nineCalls.requested := by
  refine ⟨by decide, by decide, by decide, ?_⟩
  intro hcase
  rcases hcase with ⟨_, hcount⟩
  exact absurd hcount (by decide)

end Record
end NginLog
