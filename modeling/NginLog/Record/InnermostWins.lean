import NginLog.Context.Scopes
import NginLog.Record.Dispatch

/-!
# The innermost scope wins

Without attributes of its own, a record should hold the innermost value of each
key in scope.  The dispatch storage takes the text of every context attribute,
also of those that an inner scope shadows, so the innermost value is whole only
if the shadowed ones before it leave room.
-/

namespace NginLog
namespace Record

open Foundation Context

/-- For each key in scope the whole innermost attribute, and nothing else. -/
def InnermostWins (record : LogRecordView) (context : List ContextAttribute) :
    Prop :=
  KeyedMerge.LastOfEach LogAttribute.key
    (context.map ContextAttribute.toLogAttribute) record.attributes

/-- The attributes that no later one shadows. -/
def visible (items : List (LogAttribute Bytes)) : List (LogAttribute Bytes) :=
  KeyedMerge.unshadowed LogAttribute.key items

/--
The stored copies agree with what was pushed: the last copy that still carries a
key in scope is its whole innermost attribute, and no copy takes a slot under a
key that is not in scope.
-/
def CopiesAgree (context : List ContextAttribute) : Prop :=
  (forall key, key ∈ context.map ContextAttribute.key ->
    KeyedMerge.lastWith LogAttribute.key key (contextCopies context) =
      KeyedMerge.lastWith LogAttribute.key key
        (context.map ContextAttribute.toLogAttribute)) ∧
  forall key,
    key ∈ KeyedMerge.kept Config.MaxAttributes
      ((contextCopies context).map LogAttribute.key) ->
    key ∈ context.map ContextAttribute.key

/--
Each attribute that no later one shadows fits the room that all earlier ones
leave, shadowed or not.
-/
def VisibleFit : Nat -> List (LogAttribute Bytes) -> Prop
  | _, [] => True
  | room, a :: rest =>
      (KeyedMerge.Shadowed LogAttribute.key a rest ∨ a.textLength ≤ room) ∧
        VisibleFit (room - a.textLength) rest

instance VisibleFit.decidable : forall (room : Nat)
    (items : List (LogAttribute Bytes)), Decidable (VisibleFit room items)
  | _, [] => isTrue trivial
  | room, a :: rest =>
      have := VisibleFit.decidable (room - a.textLength) rest
      inferInstanceAs (Decidable (_ ∧ _))

/--
The attributes that fit one after the other, and what is left of the first one
that does not fit.
-/
def stored : Nat -> List (LogAttribute Bytes) -> List (LogAttribute Bytes)
  | _, [] => []
  | room, a :: rest =>
      if a.textLength ≤ room then
        a :: stored (room - a.textLength) rest
      else
        [a.cutKeyFirst room]

/-- Each visible attribute with a key equals one of the stored ones. -/
def VisibleStored (room : Nat) (items : List (LogAttribute Bytes)) : Prop :=
  forall a, a ∈ visible items -> a.key ≠ [] -> a ∈ stored room items

theorem map_key_toLogAttribute (context : List ContextAttribute) :
    (context.map ContextAttribute.toLogAttribute).map LogAttribute.key =
      context.map ContextAttribute.key := by
  rw [List.map_map]
  rfl

/-!
## Copies that agree
-/

theorem innermost_wins_iff_agree (site : CallSite)
    {context : List ContextAttribute} {callback : Callback}
    (hkeys : (context.map ContextAttribute.key).toFinset.card ≤
      Config.MaxAttributes)
    (hnone : callback.requested = []) :
    InnermostWins (loggedRecord site context callback) context <->
      CopiesAgree context := by
  have hattributes := (loggedRecord_merged site context callback).1
  have hcopies : mergedCopies context callback.requested =
      contextCopies context := by
    rw [hnone]
    exact List.append_nil _
  rw [hcopies] at hattributes
  have hslots := KeyedMerge.merge_keys LogAttribute.key Config.MaxAttributes
    (contextCopies context)
  rw [InnermostWins, hattributes, CopiesAgree,
    ← map_key_toLogAttribute context]
  constructor
  · intro hwins
    constructor
    · intro key hkey
      rcases KeyedMerge.exists_lastWith hkey with ⟨e, he⟩
      have hekey := (KeyedMerge.lastWith_some he).2
      have hmerged := (hwins.mem_iff e).mpr (by rw [hekey, he])
      rw [he, ← hekey]
      exact (KeyedMerge.mem_merge_iff.mp hmerged).2
    · intro key hkey
      rw [← hslots, List.mem_map] at hkey
      rcases hkey with ⟨e, he, rfl⟩
      exact List.mem_map_of_mem
        (KeyedMerge.lastWith_some ((hwins.mem_iff e).mp he)).1
  · intro hcase
    rcases hcase with ⟨hlast, hforeign⟩
    have hdistinct := KeyedMerge.nodup_kept Config.MaxAttributes
      ((contextCopies context).map LogAttribute.key)
    refine ⟨by rwa [hslots], fun e => ?_⟩
    rw [KeyedMerge.mem_merge_iff]
    constructor
    · intro hcase
      rcases hcase with ⟨hkept, he⟩
      rw [← hlast e.key (hforeign e.key hkept), he]
    · intro he
      have hkey : e.key ∈
          (context.map ContextAttribute.toLogAttribute).map LogAttribute.key :=
        List.mem_map_of_mem (KeyedMerge.lastWith_some he).1
      have hcopy := hlast e.key hkey
      rw [he] at hcopy
      refine ⟨?_, hcopy⟩
      -- Either a slot is left, or the slots hold all the keys in scope.
      exact KeyedMerge.mem_kept_of_subset
        (by rwa [map_key_toLogAttribute]) hforeign hkey
        (List.mem_map_of_mem (KeyedMerge.lastWith_some hcopy).1)

/-!
## Room for what is visible

If all that is visible fits, the copies have their keys and the visible ones are
whole.  Once an attribute does not fit, the later copies have no key.
-/

theorem VisibleFit.key_length_le {room : Nat}
    {items : List (LogAttribute Bytes)} (h : VisibleFit room items)
    {key : Bytes} (hkey : key ∈ items.map LogAttribute.key) :
    key.length ≤ room := by
  induction items generalizing room with
  | nil => cases hkey
  | cons a rest ih =>
      rcases h with ⟨hfirst, hrest⟩
      by_cases hlater : key ∈ rest.map LogAttribute.key
      · exact Nat.le_trans (ih hrest hlater) (Nat.sub_le _ _)
      · rw [List.map_cons, List.mem_cons, or_iff_left hlater] at hkey
        rw [hkey] at hlater ⊢
        have hfits := hfirst.resolve_left hlater
        unfold LogAttribute.textLength at hfits
        omega

theorem VisibleFit.clip {room : Nat} {items : List (LogAttribute Bytes)}
    (h : VisibleFit room items) :
    (Clip.clip LogAttribute.cutKeyFirst LogAttribute.textLength room
        items).map LogAttribute.key = items.map LogAttribute.key ∧
      forall key, KeyedMerge.lastWith LogAttribute.key key
          (Clip.clip LogAttribute.cutKeyFirst LogAttribute.textLength room
            items) =
        KeyedMerge.lastWith LogAttribute.key key items := by
  induction items generalizing room with
  | nil => exact ⟨rfl, fun _ => rfl⟩
  | cons a rest ih =>
      have hlength : a.key.length ≤ room :=
        h.key_length_le (List.mem_map_of_mem List.mem_cons_self)
      have hcutkey : (a.cutKeyFirst room).key = a.key :=
        List.take_of_length_le hlength
      rcases h with ⟨hfirst, hrest⟩
      rcases ih hrest with ⟨hkeys, hlast⟩
      constructor
      · rw [Clip.clip_cons, List.map_cons, List.map_cons, hkeys, hcutkey]
      intro key
      rw [Clip.clip_cons, KeyedMerge.lastWith_cons, KeyedMerge.lastWith_cons,
        hlast, hcutkey]
      by_cases hkey : a.key = key
      · rw [if_pos hkey, if_pos hkey]
        rcases hfirst with hshadowed | hfits
        · -- A later attribute with the key hides this one.
          rcases KeyedMerge.exists_lastWith hshadowed with ⟨e, he⟩
          rw [← hkey, he, Option.some_or, Option.some_or]
        · rw [LogAttribute.cutKeyFirst_eq_self room a hfits]
      · rw [if_neg hkey, if_neg hkey]

theorem copiesAgree_of_visibleFit {context : List ContextAttribute}
    (h : VisibleFit (Config.MaxAttrTextBytes * 2)
      (context.map ContextAttribute.toLogAttribute)) :
    CopiesAgree context := by
  rcases h.clip with ⟨hkeys, hlast⟩
  constructor
  · intro key _
    exact hlast key
  · intro key hkey
    have hmem := KeyedMerge.mem_of_mem_kept hkey
    rwa [contextCopies, hkeys, map_key_toLogAttribute] at hmem

theorem mem_stored_of_mem_clip {room : Nat} {items : List (LogAttribute Bytes)}
    {a : LogAttribute Bytes}
    (h : a ∈ Clip.clip LogAttribute.cutKeyFirst LogAttribute.textLength room
      items)
    (hkey : a.key ≠ []) :
    a ∈ stored room items := by
  induction items generalizing room with
  | nil => cases h
  | cons first rest ih =>
      rw [Clip.clip_cons] at h
      unfold stored
      split
      · rename_i hfits
        rw [LogAttribute.cutKeyFirst_eq_self room first hfits] at h
        rcases List.mem_cons.mp h with rfl | hrest
        · exact List.mem_cons_self
        · exact List.mem_cons_of_mem _ (ih hrest)
      · rename_i hcut
        rcases List.mem_cons.mp h with rfl | hrest
        · exact List.mem_singleton_self _
        · have hblank : forall e, e ∈ Clip.clip LogAttribute.cutKeyFirst
              LogAttribute.textLength (room - first.textLength) rest ->
                e.key = [] := by
            refine Clip.forall_mem_clip fun room' e hroom => ?_
            have hzero : room' = 0 := by omega
            rw [hzero]
            rfl
          exact absurd (hblank a hrest) hkey

theorem CopiesAgree.visibleStored {context : List ContextAttribute}
    (h : CopiesAgree context) :
    VisibleStored (Config.MaxAttrTextBytes * 2)
      (context.map ContextAttribute.toLogAttribute) := by
  intro a ha hkey
  have hlast := KeyedMerge.lastWith_of_mem_unshadowed ha
  have hscope : a.key ∈ context.map ContextAttribute.key := by
    rw [← map_key_toLogAttribute]
    exact List.mem_map_of_mem (KeyedMerge.lastWith_some hlast).1
  rw [← h.1 a.key hscope] at hlast
  exact mem_stored_of_mem_clip (KeyedMerge.lastWith_some hlast).1 hkey

/-!
## When the innermost scope wins
-/

/--
The innermost values are dispatched exactly when the stored copies agree with
what was pushed: whenever all that is visible fits where it stands, and only if
all that is visible is equal to something that was stored.
-/
theorem innermost_wins_iff (site : CallSite)
    (scopes : List (List ContextAttribute)) (callback : Callback)
    (hkeys : ((contextView scopes).map ContextAttribute.key).toFinset.card ≤
      Config.MaxAttributes)
    (hnone : callback.requested = []) :
    (InnermostWins (loggedRecord site (contextView scopes) callback)
        (contextView scopes) <->
      CopiesAgree (contextView scopes)) ∧
    (VisibleFit (Config.MaxAttrTextBytes * 2)
        ((contextView scopes).map ContextAttribute.toLogAttribute) ->
      InnermostWins (loggedRecord site (contextView scopes) callback)
        (contextView scopes)) ∧
    (InnermostWins (loggedRecord site (contextView scopes) callback)
        (contextView scopes) ->
      VisibleStored (Config.MaxAttrTextBytes * 2)
        ((contextView scopes).map ContextAttribute.toLogAttribute)) := by
  have hiff := innermost_wins_iff_agree site hkeys hnone
  exact ⟨hiff, fun hfit => hiff.mpr (copiesAgree_of_visibleFit hfit),
    fun hwins => (hiff.mp hwins).visibleStored⟩

def shortScopes : List (List ContextAttribute) :=
  [ [{ key := ascii "k", value := AttributeValue.text (ascii "outer") }],
    [{ key := ascii "k", value := AttributeValue.text (ascii "inner") }] ]

theorem short_scopes_innermost :
    InnermostWins
      (loggedRecord {} (contextView shortScopes) { calls := [] })
      (contextView shortScopes) :=
  (innermost_wins_iff {} shortScopes { calls := [] } (by decide) rfl).2.1
    (by decide)

def longScopes : List (List ContextAttribute) :=
  [ [{ key := ascii "k", value := AttributeValue.text (List.replicate 300 97) }],
    [{ key := ascii "k", value := AttributeValue.text (List.replicate 300 98) }] ]

/-- The outer value leaves no room for the whole inner one. -/
theorem long_scopes_cut_innermost :
    ((contextView longScopes).map ContextAttribute.key).toFinset.card ≤
        Config.MaxAttributes ∧
      Clip.total LogAttribute.textLength
        (visible ((contextView longScopes).map
          ContextAttribute.toLogAttribute)) ≤ 2 * Config.MaxAttrTextBytes ∧
      ¬ InnermostWins
        (loggedRecord {} (contextView longScopes) { calls := [] })
        (contextView longScopes) := by
  refine ⟨by decide +kernel, by decide +kernel, fun hwins => ?_⟩
  have hinner := (hwins.mem_iff
    { key := ascii "k"
      value := AttributeValue.text (List.replicate 300 98) }).mpr
    (by decide +kernel)
  exact absurd hinner (by decide +kernel)

end Record
end NginLog
