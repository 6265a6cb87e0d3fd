import GameLink.Proofs.Json.Grammar
import GameLink.Proofs.Message.Decoding
import GameLink.Proofs.Text.Order

/-! # Frames with their members in another order

Where no key repeats, the order of the members of a frame and the blanks between
them are of no account: what is found under a key does not depend on it, and the
payload is put in key order. The kind of a push is read off the payload in that
order, so it is the least of the keys that are known, by their bytes.
-/
namespace GameLink

namespace Json.Document

/-! ## Members with distinct keys -/

theorem mem_iff_find? {members : Members} (apart : (members.filterMap Prod.fst).Nodup)
    {key : String} {d : Document} : (some key, d) ∈ members ↔ find? key members = some d := by
  induction members with
  | nil => simp [find?]
  | cons m rest ih =>
    obtain ⟨k, d'⟩ := m
    cases k with
    | none => simpa [find?] using ih apart
    | some k =>
      obtain ⟨hnot, hrest⟩ := List.nodup_cons.mp (show (k :: rest.filterMap Prod.fst).Nodup from apart)
      rw [List.mem_cons, find?]
      by_cases hk : k = key
      · subst hk
        have absent : (some k, d) ∉ rest := fun h => hnot (List.mem_filterMap.mpr ⟨_, h, rfl⟩)
        rw [if_pos rfl, or_iff_left absent, Prod.mk.injEq, Option.some.injEq d']
        exact ⟨fun h => h.2.symm, fun h => ⟨rfl, h.symm⟩⟩
      · simp [Ne.symm hk, hk, ih hrest]

theorem find?_perm {members members' : Members} (h : members.Perm members')
    (apart : (members.filterMap Prod.fst).Nodup) (key : String) :
    find? key members = find? key members' := by
  have apart' := (h.filterMap Prod.fst).nodup_iff.mp apart
  ext d
  rw [← mem_iff_find? apart, ← mem_iff_find? apart', h.mem_iff]

theorem members?_cons_eq_some {depth : Nat} {m : Option String × Document} {rest : Members}
    {vs : List (String × Json)} : members? depth (m :: rest) = some vs ↔
      ∃ k v vs', m.1 = some k ∧ m.2.value? depth = some v ∧ members? depth rest = some vs' ∧
        vs = (k, v) :: vs' := by
  obtain ⟨key, d⟩ := m
  constructor
  · intro h
    unfold members? at h
    split at h
    · rename_i hv hvs
      cases h
      exact ⟨_, _, _, rfl, hv, hvs, rfl⟩
    · cases h
  · rintro ⟨k, v, vs', rfl, hv, hvs, rfl⟩
    simp [members?, show d.value? depth = some v from hv, hvs]

/-- The values of members are in their order. -/
theorem members?_perm {depth : Nat} {members members' : Members} (h : members.Perm members')
    {vs : List (String × Json)} (hvs : members? depth members = some vs) :
    ∃ vs', members? depth members' = some vs' ∧ vs.Perm vs' := by
  induction h generalizing vs with
  | nil => exact ⟨vs, hvs, .refl vs⟩
  | cons m _ ih =>
    obtain ⟨k, v, vs, hk, hv, hrest, rfl⟩ := members?_cons_eq_some.mp hvs
    obtain ⟨vs', hvs', hperm⟩ := ih hrest
    exact ⟨_, members?_cons_eq_some.mpr ⟨k, v, vs', hk, hv, hvs', rfl⟩, hperm.cons _⟩
  | swap m m' rest =>
    obtain ⟨k', v', _, hk', hv', hsecond, rfl⟩ := members?_cons_eq_some.mp hvs
    obtain ⟨k, v, vs, hk, hv, hrest, rfl⟩ := members?_cons_eq_some.mp hsecond
    have hrest' := members?_cons_eq_some.mpr ⟨k', v', vs, hk', hv', hrest, rfl⟩
    exact ⟨_, members?_cons_eq_some.mpr ⟨k, v, _, hk, hv, hrest', rfl⟩, .swap _ _ _⟩
  | trans _ _ ih ih' =>
    obtain ⟨vs', hvs', hperm⟩ := ih hvs
    obtain ⟨vs'', hvs'', hperm'⟩ := ih' hvs'
    exact ⟨vs'', hvs'', hperm.trans hperm'⟩

theorem keys_of_members? {depth : Nat} {members : Members} {vs : List (String × Json)}
    (h : members? depth members = some vs) : vs.map Prod.fst = members.filterMap Prod.fst := by
  induction members generalizing vs with
  | nil => cases h; rfl
  | cons m rest ih =>
    obtain ⟨k, v, vs', hk, -, hrest, rfl⟩ := members?_cons_eq_some.mp h
    rw [List.filterMap_cons_some hk, List.map_cons, ih hrest]

end Json.Document

namespace Envelope
open Json.Document

/-! ## What is decoded -/

theorem Shows.perm {members members' : Members} {e : Envelope} (h : Shows members e)
    (perm : members.Perm members') (apart : (members.filterMap Prod.fst).Nodup) :
    Shows members' e where
  single := ⟨((perm.filter _).map Prod.fst).nodup_iff.mp h.single.apart, by simp⟩
  cid := find?_perm perm apart "cid" ▸ h.cid
  error := find?_perm perm apart "error" ▸ h.error
  notifications := find?_perm perm apart "notifications" ▸ h.notifications
  payload := by
    obtain ⟨vs, hvs, hpayload⟩ := Option.map_eq_some_iff.mp h.payload
    obtain ⟨vs', hvs', hperm⟩ := members?_perm (perm.filter _) hvs
    have distinct : (vs.map Prod.fst).Nodup := by
      rw [keys_of_members? hvs]
      exact apart.sublist (List.filter_sublist.filterMap _)
    rw [plain, hvs', Option.map_some, ← Json.ofList_perm hperm distinct, hpayload]

theorem decode_eq_error {frame : Bytes} {f : Failure} (h : decode frame = .error f) :
    f = .decode .frame := by
  rw [decode] at h
  split at h <;> cases h
  rfl

theorem decode_object_iff {frame : Bytes} {members : Members}
    (text : IsText (.object members true) frame) {e : Envelope} :
    decode frame = .ok e ↔ ∃ e', Shows members e' ∧ e = e'.dropEmptyCid := by
  have read := ofBytes_eq_iff.mpr text
  rw [decode_eq_ok_iff]
  constructor
  · rintro ⟨members', e', hread, shown, rfl⟩
    cases read.symm.trans hread
    exact ⟨e', shown, rfl⟩
  · rintro ⟨e', shown, rfl⟩
    exact ⟨members, e', read, shown, rfl⟩

/-- Two texts of the same members are decoded to the same, be it an envelope or an error. -/
theorem decode_perm {members members' : Members} {frame frame' : Bytes}
    (text : IsText (.object members true) frame) (text' : IsText (.object members' true) frame')
    (perm : members.Perm members') (apart : (members.filterMap Prod.fst).Nodup) :
    decode frame = decode frame' := by
  have apart' := (perm.filterMap Prod.fst).nodup_iff.mp apart
  have same : ∀ e, decode frame = .ok e ↔ decode frame' = .ok e := by
    intro e
    rw [decode_object_iff text, decode_object_iff text']
    exact exists_congr fun e' => and_congr_left fun _ =>
      ⟨fun h => h.perm perm apart, fun h => h.perm perm.symm apart'⟩
  cases h : decode frame with
  | ok e => exact ((same e).mp h).symm
  | error f =>
    cases h' : decode frame' with
    | ok e => exact nomatch h.symm.trans ((same e).mpr h')
    | error f' => rw [decode_eq_error h, decode_eq_error h']

/-! ## Kinds of pushes -/

/-- The least of the texts with a property, by their bytes. -/
structure Least (p : String → Prop) (key : String) : Prop where
  holds : p key
  least : ∀ other, p other → other ≠ key → Bytes.ofText key < Bytes.ofText other

def Recognised (key : String) : Prop := ∃ k ∈ PushKind.known, k.key = key

/-- The kind of an envelope: a batch of notifications comes first, then the least known key of the
payload, then its least key. -/
inductive Classifies (e : Envelope) : PushKind → Prop
  | batch (h : e.notifications.isSome = true) : Classifies e .notifications
  | known {k : PushKind} (h : e.notifications = none) (known : k ∈ PushKind.known)
      (least : Least (fun key => key ∈ Entries.keys e.payload ∧ Recognised key) k.key) :
      Classifies e k
  | other {key : String} (h : e.notifications = none)
      (unknown : ∀ key ∈ Entries.keys e.payload, ¬ Recognised key)
      (least : Least (· ∈ Entries.keys e.payload) key) : Classifies e (.other key)
  | empty (h : e.notifications = none) (none : e.payload = []) : Classifies e (.other "")

theorem Least.unique {p : String → Prop} {key key' : String} (h : Least p key) (h' : Least p key') :
    key = key' := by
  by_contra hne
  exact List.lt_asymm (h.least key' h'.holds (Ne.symm hne)) (h'.least key h.holds hne)

theorem ofKey?_key : ∀ k ∈ PushKind.known, PushKind.ofKey? k.key = some k := by decide

theorem ofKey?_eq_some_iff {key : String} {k : PushKind} :
    PushKind.ofKey? key = some k ↔ k ∈ PushKind.known ∧ k.key = key := by
  constructor
  · intro h
    exact ⟨List.mem_of_find?_eq_some h, by simpa using List.find?_some h⟩
  · rintro ⟨known, rfl⟩
    exact ofKey?_key k known

theorem ofKey?_eq_none_iff {key : String} : PushKind.ofKey? key = none ↔ ¬ Recognised key := by
  rw [Option.eq_none_iff_forall_ne_some, Recognised]
  simp only [ne_eq, ofKey?_eq_some_iff, not_exists]

theorem least_head {key : String} {rest : List String}
    (sorted : (key :: rest).Pairwise (· < ·)) : Least (· ∈ key :: rest) key where
  holds := List.mem_cons_self
  least := by
    intro other hother hne
    rcases List.mem_cons.mp hother with rfl | hother
    · exact absurd rfl hne
    · exact Bytes.ofText_lt_iff.mpr ((List.pairwise_cons.mp sorted).1 other hother)

/-- The first known key of keys in order is the least. -/
theorem least_known {keys : List String} (sorted : keys.Pairwise (· < ·)) {k : PushKind}
    (h : keys.findSome? PushKind.ofKey? = some k) :
    k ∈ PushKind.known ∧ Least (fun key => key ∈ keys ∧ Recognised key) k.key := by
  obtain ⟨before, key, after, rfl, found, unknown⟩ := List.findSome?_eq_some_iff.mp h
  obtain ⟨known, rfl⟩ := ofKey?_eq_some_iff.mp found
  refine ⟨known, ⟨by simp, k, known, rfl⟩, fun other hother hne => ?_⟩
  obtain ⟨hmem, recognised⟩ := hother
  rcases List.mem_append.mp hmem with hmem | hmem
  · exact absurd recognised (ofKey?_eq_none_iff.mp (unknown other hmem))
  · exact (least_head (List.pairwise_append.mp sorted).2.1).least other hmem hne

theorem classifies_pushKind {e : Envelope} (sorted : Entries.Sorted e.payload) :
    Classifies e e.pushKind := by
  have keys : (Entries.keys e.payload).Pairwise (· < ·) := List.pairwise_map.mpr sorted
  rw [pushKind]
  split
  · rename_i batch
    exact .batch batch
  · rename_i single
    have single : e.notifications = none := by simpa using single
    split
    · rename_i k h
      obtain ⟨known, least⟩ := least_known keys h
      exact .known single known least
    · rename_i unknown
      rw [List.findSome?_eq_none_iff] at unknown
      cases hkeys : Entries.keys e.payload with
      | nil => exact .empty single (List.map_eq_nil_iff.mp hkeys)
      | cons key rest =>
        refine .other single (fun key hkey => ofKey?_eq_none_iff.mp (unknown key hkey)) ?_
        rw [hkeys] at keys ⊢
        exact least_head keys

theorem Classifies.eq {e : Envelope} (sorted : Entries.Sorted e.payload) {k : PushKind}
    (h : Classifies e k) : e.pushKind = k := by
  have keys : (Entries.keys e.payload).Pairwise (· < ·) := List.pairwise_map.mpr sorted
  rw [pushKind]
  cases h with
  | batch batch => rw [if_pos batch]
  | known single known least =>
    simp only [single]
    cases found : (Entries.keys e.payload).findSome? PushKind.ofKey? with
    | none =>
      obtain ⟨hmem, recognised⟩ := least.holds
      have unknown := List.findSome?_eq_none_iff.mp found _ hmem
      exact absurd recognised (ofKey?_eq_none_iff.mp unknown)
    | some k' =>
      obtain ⟨known', least'⟩ := least_known keys found
      have same := least.unique least'
      exact Option.some.inj ((ofKey?_key _ known').symm.trans (same ▸ ofKey?_key _ known))
  | @other key single unknown least =>
    have none : (Entries.keys e.payload).findSome? PushKind.ofKey? = none :=
      List.findSome?_eq_none_iff.mpr fun key hkey => ofKey?_eq_none_iff.mpr (unknown key hkey)
    simp only [single, none]
    cases hkeys : Entries.keys e.payload with
    | nil => exact absurd least.holds (hkeys ▸ List.not_mem_nil)
    | cons key' rest =>
      rw [hkeys] at keys least
      exact congrArg PushKind.other ((least_head keys).unique least)
  | empty single empty =>
    simp [single, empty, Entries.keys]

theorem sorted_payload {frame : Bytes} {e : Envelope} (h : decode frame = .ok e) :
    Entries.Sorted e.payload := by
  obtain ⟨members, e', -, shown, rfl⟩ := decode_eq_ok_iff.mp h
  obtain ⟨vs, -, payload⟩ := Option.map_eq_some_iff.mp shown.payload
  exact payload ▸ Entries.sorted_ofList vs

/-- The kind of whatever is decoded. -/
theorem pushKind_eq_iff {frame : Bytes} {e : Envelope} (h : decode frame = .ok e) {k : PushKind} :
    e.pushKind = k ↔ Classifies e k := by
  have sorted := sorted_payload h
  exact ⟨fun hk => hk ▸ classifies_pushKind sorted, Classifies.eq sorted⟩

end Envelope
end GameLink
