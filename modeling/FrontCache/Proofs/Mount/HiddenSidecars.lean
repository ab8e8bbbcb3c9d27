import FrontCache.Proofs.Mount.Shape
import FrontCache.Proofs.Mount.Uploads
import FrontCache.Proofs.Volume.Sidecars
import FrontCache.Proofs.Volume.StaysOrdinary
/-!
# Sidecar names stay hidden

With `ignoreSidecars` set, lookups never pass a sidecar path on: `resolve` refuses one before
it asks the cache or the store, and a fresh listing leaves sidecar children out. The changes
are another matter, since each takes the path it is given: a folder made at a sidecar path
reaches the store and the cache (`Volume.sidecar_folder_reaches_store`). So the statement is
for runs whose changes are not asked to make a sidecar path.

Main statement (`sidecars_stay_hidden`): from a fresh mount that ignores sidecars, along every
run whose folders made, uploads opened, copies, moves, renames and registered entries have
targets that are no sidecar paths, and without outside changes, every reachable state caches no
sidecar path, in an entry or a listing, and its store holds no node and no pending copy at a
sidecar path, so no call of the store was ever made to make one; and resolving a sidecar path
there fails with `notFound` before any call of the store. Each operation keeps this on its own
(`Volume.Hidden`, one lemma an operation), and a run keeps it step by step (`hidden_act`).
-/
namespace FrontCache

open Std.Do

set_option mvcgen.warning false

theorem Path.isSidecar_join (d : Path) {n : String} (hn : isComponentName n = true) :
    (d.join n).isSidecar = isSidecarName n := by
  unfold Path.isSidecar
  rw [Path.fileName?_join d hn]

theorem Path.isSidecar_of_fileName? {p : Path} {n : String} (h : p.fileName? = some n) :
    p.isSidecar = isSidecarName n := by
  unfold Path.isSidecar
  rw [h]

namespace EntryCache

variable {α : Type} {c c' : EntryCache α}

/-- No entry and no listing of the cache names a sidecar path. -/
def Hides (c : EntryCache α) : Prop := ∀ q, c.Mentions q → q.isSidecar = false

namespace Hides

/-- A cache that mentions only what an old one mentions, or paths that are no sidecars. -/
theorem of_mentions (h : c.Hides)
    (h' : ∀ q, c'.Mentions q → c.Mentions q ∨ q.isSidecar = false) : c'.Hides := by
  intro q hq
  rcases h' q hq with hq | hq
  · exact h q hq
  · exact hq

theorem empty : ({} : EntryCache α).Hides := by
  rintro q (h | ⟨d, l, h, -⟩)
  · simp at h
  · simp [listing?] at h

theorem get (h : c.Hides) (p : Path) : (c.get p).2.Hides :=
  h.of_mentions fun q hq => Or.inl (by simpa [Mentions, listing?_get] using hq)

theorem put (h : c.Hides) {p : Path} (hp : p.isSidecar = false) (e : α) : (c.put p e).Hides := by
  refine h.of_mentions fun q hq => ?_
  rcases hq with hq | ⟨d, l, hl, hql⟩
  · rw [get?_put] at hq
    split at hq
    · rename_i hqp
      exact Or.inr (hqp ▸ hp)
    · exact Or.inl (Or.inl hq)
  · exact Or.inl (Or.inr ⟨d, l, hl, hql⟩)

theorem evict (h : c.Hides) (p : Path) : (c.evict p).2.Hides := by
  refine h.of_mentions fun q hq => Or.inl ?_
  rcases hq with hq | ⟨d, l, hl, hql⟩
  · rw [get?_evict] at hq
    split at hq
    · cases hq
    · exact Or.inl hq
  · rw [listing?_evict] at hl
    exact Or.inr ⟨d, l, hl, hql⟩

theorem putListing (h : c.Hides) {d : Path} {l : List Path} (hl : ∀ q ∈ l, q.isSidecar = false) :
    (c.putListing d l).Hides := by
  refine h.of_mentions fun q hq => ?_
  rcases hq with hq | ⟨d', l', hl', hql⟩
  · exact Or.inl (Or.inl hq)
  · rw [listing?_putListing] at hl'
    split at hl'
    · cases hl'
      exact Or.inr (hl q hql)
    · exact Or.inl (Or.inr ⟨d', l', hl', hql⟩)

theorem eraseListing (h : c.Hides) (d : Path) :
    ({ c with listings := c.listings.erase d } : EntryCache α).Hides := by
  refine h.of_mentions fun q hq => Or.inl ?_
  rcases hq with hq | ⟨d', l, hl, hql⟩
  · exact Or.inl hq
  · have hl' : c.listing? d' = some l := by
      by_cases hd : d' = d
      · subst hd
        simp [listing?] at hl
      · simpa [listing?, hd] using hl
    exact Or.inr ⟨d', l, hl', hql⟩

theorem add (h : c.Hides) {p : Path} (hp : p.isSidecar = false) (e : α) : (c.add p e).Hides := by
  refine h.of_mentions fun q hq => ?_
  rcases hq with hq | ⟨d, l, hl, hql⟩
  · rw [get?_add] at hq
    split at hq
    · rename_i hqp
      exact Or.inr (hqp ▸ hp)
    · exact Or.inl (Or.inl hq)
  · rw [listing?_add] at hl
    split at hl
    · cases hl
      rcases List.mem_append.1 hql with hm | hm
      · cases hd : c.listing? d with
        | none =>
          rw [hd] at hm
          cases hm
        | some l0 =>
          rw [hd] at hm
          exact Or.inl (Or.inr ⟨d, l0, hd, hm⟩)
      · rw [List.mem_singleton.1 hm]
        exact Or.inr hp
    · exact Or.inl (Or.inr ⟨d, l, hl, hql⟩)

theorem remove (h : c.Hides) (p : Path) : (c.remove p).Hides := by
  refine h.of_mentions fun q hq => Or.inl ?_
  rcases hq with hq | ⟨d, l, hl, hql⟩
  · rw [get?_remove] at hq
    split at hq
    · cases hq
    · exact Or.inl hq
  · rw [listing?_remove] at hl
    split at hl
    · cases hl
    · split at hl
      · obtain ⟨l0, hl0, rfl⟩ := Option.map_eq_some_iff.1 hl
        exact Or.inr ⟨d, l0, hl0, (List.mem_filter.1 hql).1⟩
      · exact Or.inr ⟨d, l, hl, hql⟩

theorem foldl_remove (h : c.Hides) (l : List Path) : (l.foldl EntryCache.remove c).Hides := by
  induction l generalizing c with
  | nil => exact h
  | cons q rest ih => exact ih (h.remove q)

theorem foldl_put (h : c.Hides) (l : List (Path × α)) (hl : ∀ pe ∈ l, pe.1.isSidecar = false) :
    (l.foldl (fun c pe => c.put pe.1 pe.2) c).Hides := by
  induction l generalizing c with
  | nil => exact h
  | cons pe rest ih =>
    exact ih (h.put (hl pe (List.mem_cons_self ..)) pe.2) fun x hx => hl x (List.mem_cons_of_mem _ hx)

theorem removeBelow (h : c.Hides) (a : Path) : (c.removeBelow a).2.Hides := by
  refine h.of_mentions fun q hq => Or.inl ?_
  rcases hq with hq | ⟨d, l, hl, hql⟩
  · rw [get?_removeBelow] at hq
    split at hq
    · cases hq
    · exact Or.inl hq
  · rw [listing?_removeBelow] at hl
    split at hl
    · cases hl
    · exact Or.inr ⟨d, l, hl, hql⟩

/-- A move mentions its target and the source's children renamed below it, which keep their
names. -/
theorem move (h : c.Hides) {s t : Path} (ht : t.isSidecar = false) (e : α) :
    (c.move s t e).Hides := by
  have h2 : (({ c with listings := c.listings.erase s } : EntryCache α).remove s).add t e |>.Hides :=
    ((h.eraseListing s).remove s).add ht e
  unfold EntryCache.move
  dsimp only
  split
  · rename_i l hl
    refine h2.putListing fun q hq => ?_
    obtain ⟨q0, hq0, hmap⟩ := List.mem_filterMap.1 hq
    obtain ⟨n, hn, rfl⟩ := Option.map_eq_some_iff.1 hmap
    rw [Path.isSidecar_join t (Path.isComponentName_of_fileName? hn),
      ← Path.isSidecar_of_fileName? hn]
    exact h q0 (Or.inr ⟨s, l, hl, hq0⟩)
  · exact h2

end Hides

end EntryCache

/-- A fresh listing that keeps no sidecar path caches none. -/
theorem EntryCache.Hides.recordListing {c : EntryCache Entry} (h : c.Hides) {dir : Path}
    {kept : List (Path × Entry)} (hk : ∀ pe ∈ kept, pe.1.isSidecar = false) :
    (Volume.recordListing dir kept c).Hides := by
  unfold Volume.recordListing
  dsimp only
  refine ((h.foldl_put kept hk).foldl_remove _).putListing fun q hq => ?_
  obtain ⟨pe, hpe, rfl⟩ := List.mem_map.1 hq
  exact hk pe hpe

theorem Path.isSidecar_join_fileName? {src : Path} {n : String} (h : src.fileName? = some n)
    (d : Path) : (d.join n).isSidecar = src.isSidecar := by
  rw [Path.isSidecar_join d (Path.isComponentName_of_fileName? h), Path.isSidecar_of_fileName? h]

theorem Path.isSidecar_reroot {q a : Path} (b : Path) (h : q.isBelow a = true) :
    (q.reroot a b).isSidecar = q.isSidecar := by
  unfold Path.isSidecar
  rw [Path.fileName?_reroot b h]

namespace Store

/-- No node of the store and no copy waiting to finish is at a sidecar path. -/
structure Hides (s : Store) : Prop where
  nodes : ∀ q, (s.node? q).isSome → q.isSidecar = false
  pending : ∀ pe ∈ s.pending, pe.1.isSidecar = false

namespace Hides

variable {s s' : Store}

theorem empty : Store.empty.Hides where
  nodes q hq := by
    rw [node?_empty] at hq
    split at hq
    · rename_i hq'
      rw [hq']
      rfl
    · cases hq
  pending _ h := by cases h

theorem of_counted (h : s.Hides) (hk : ∃ k, s' = { s with calls := k }) : s'.Hides := by
  obtain ⟨k, rfl⟩ := hk
  exact ⟨h.nodes, h.pending⟩

theorem link (h : s.Hides) {p : Path} {s1 : Store} (hl : s.link p = .ok s1) : s1.Hides := by
  refine ⟨fun q hq => h.nodes q ?_, ?_⟩
  · rwa [node?_link_isSome hl] at hq
  · obtain ⟨d, name, id, cs, -, -, rfl⟩ := link_eq_ok hl
    exact h.pending

theorem insert (h : s.Hides) {p : Path} (hp : p.isSidecar = false) {b : Body} {e : Entry}
    (hi : s.insert p b = .ok (e, s')) : s'.Hides := by
  obtain ⟨-, s1, hl, -, rfl⟩ := insert_eq_ok hi
  have h1 := h.link hl
  refine ⟨fun q hq => ?_, h1.pending⟩
  by_cases hqp : q = p
  · rw [hqp]
    exact hp
  · exact h1.nodes q (by simpa [node?, Table.get?_insert, hqp] using hq)

theorem detach (h : s.Hides) (p : Path) : (s.detach p).2.Hides := by
  refine ⟨fun q hq => ?_, by rw [detach_snd]; exact h.pending⟩
  rw [node?_detach] at hq
  split at hq
  · cases hq
  · exact h.nodes q (by rwa [node?_unlink_isSome] at hq)

theorem overwrite (h : s.Hides) {p : Path} {n : Node} (hn : s.node? p = some n) (b : Body) :
    (s.overwrite p n b).2.Hides := by
  refine ⟨fun q hq => ?_, h.pending⟩
  rw [node?_overwrite] at hq
  split at hq
  · rename_i hqp
    rw [hqp]
    exact h.nodes p (by rw [hn]; rfl)
  · exact h.nodes q hq

/-- A move brings the subtree under its target with the names it had. -/
theorem relocate (h : s.Hides) {src dst : Path} (hd : dst.isSidecar = false) {e : Entry}
    (hr : s.relocate src dst = .ok (e, s')) : s'.Hides := by
  obtain ⟨-, -, s1, hl, hq, -, hs'⟩ := relocate_eq_ok hr
  have h1 := h.link hl
  have hdet := (h1.detach src).nodes
  refine ⟨fun q hqs => ?_, by rw [hs']; exact h.pending⟩
  rw [hq q] at hqs
  split at hqs
  · rename_i hw
    rcases Bool.or_eq_true_iff.1 (Option.isSome_or ▸ hqs) with hm | hm
    · rcases within_cases hw with rfl | hb
      · exact hd
      · rw [← Path.isSidecar_reroot src hb]
        exact h1.nodes _ (by rwa [node?_unlink_isSome] at hm)
    · exact hdet q hm
  · exact hdet q hqs

theorem relocate_counted (h : s.Hides) {src dst : Path} (hd : dst.isSidecar = false) {e : Entry}
    (hr : ∃ k, { s with calls := k }.relocate src dst = .ok (e, s')) : s'.Hides := by
  obtain ⟨k, hk⟩ := hr
  have h0 : ({ s with calls := k } : Store).Hides := h.of_counted ⟨k, rfl⟩
  exact h0.relocate hd hk

end Hides

theorem Counts.hides {α : Type} {x : StoreM α} (hx : Counts x) : Kept Hides x :=
  fun s h => h.of_counted (hx s)

theorem createFolder_hides (parent : Entry) {p : Path} (hp : p.isSidecar = false) :
    Kept Hides (createFolder parent p) := by
  refine moves_of_spec (createFolder_spec parent p) ?_ fun _ _ _ h hk => h.of_counted hk
  intro s0 _ s h hs
  obtain ⟨k, hins⟩ := hs.2
  have h0 : ({ s0 with calls := k } : Store).Hides := h.of_counted ⟨k, rfl⟩
  exact h0.insert hp hins

theorem remove_hides (e : Entry) (p : Path) : Kept Hides (remove e p) := by
  refine moves_of_spec (remove_spec e p) ?_ fun _ _ _ h hk => h.of_counted hk
  intro s0 _ s h hs
  obtain ⟨k, rfl⟩ := hs.2
  have h0 : ({ s0 with calls := k } : Store).Hides := h.of_counted ⟨k, rfl⟩
  exact h0.detach p

/-- A copy makes its target, and when copies finish later, names the target in the waiting
list. -/
theorem copy_hides (se parent : Entry) (src : Path) {target : Path}
    (ht : target.isSidecar = false) (replace : Bool) :
    Kept Hides (copy se parent src target replace) := by
  refine moves_of_spec (copy_spec se parent src target replace) ?_ ?_
  · intro s0 _ s h hs
    obtain ⟨n, data, -, -, -, k, e, s2, hins, hs⟩ := hs
    have h0 : ({ s0 with calls := k } : Store).Hides := h.of_counted ⟨k, rfl⟩
    have h2 : s2.Hides := by
      split at hins
      · exact (h0.detach target).insert ht hins
      · exact h0.insert ht hins
    split at hs
    · rw [hs.1]
      refine ⟨h2.nodes, fun pe hpe => ?_⟩
      rcases List.mem_append.1 hpe with hpe | hpe
      · exact h2.pending pe hpe
      · rw [List.mem_singleton.1 hpe]
        exact ht
    · rw [hs.1]
      exact h2
  · intro s0 _ s h hs
    rcases hs with ⟨hk, -⟩ | ⟨-, k, rfl⟩
    · exact h.of_counted hk
    · have h0 : ({ s0 with calls := k } : Store).Hides := h.of_counted ⟨k, rfl⟩
      exact h0.detach target

theorem rename_hides (se parent : Entry) (src : Path) {target : Path}
    (ht : target.isSidecar = false) : Kept Hides (rename se parent src target) :=
  moves_of_spec (rename_spec se parent src target) (fun _ _ _ h hs => h.relocate_counted ht hs.2.2)
    fun _ _ _ h hs => h.of_counted hs.1

theorem moveEntry_hides (se parent : Entry) (src : Path) {target : Path}
    (ht : target.isSidecar = false) : Kept Hides (moveEntry se parent src target) :=
  moves_of_spec (moveEntry_spec se parent src target)
    (fun _ _ _ h hs => h.relocate_counted ht hs.2.2) fun _ _ _ h hs => h.of_counted hs.1

theorem moveFolder_hides (se parent : Entry) (src : Path) {target : Path}
    (ht : target.isSidecar = false) : Kept Hides (moveFolder se parent src target) :=
  moves_of_spec (moveFolder_spec se parent src target)
    (fun _ _ _ h hs => h.relocate_counted ht hs.2.2) fun _ _ _ h hs => h.of_counted hs.1

theorem commitUpload_hides {p : Path} (hp : p.isSidecar = false) (bytes : List UInt8) :
    Kept Hides (commitUpload p bytes) := by
  refine moves_of_spec (commitUpload_spec p bytes) ?_ fun _ _ _ h hs => hs ▸ h
  rintro s0 _ s h (⟨n, hn, rfl, -⟩ | ⟨-, e, hins, -⟩)
  · exact h.overwrite hn _
  · exact h.insert hp hins

end Store

namespace Volume

/-- Sidecars are ignored, and neither the entry cache nor the store names a sidecar path. -/
structure Hidden (v : Volume) : Prop where
  ignores : v.options.ignoreSidecars = true
  entries : v.entries.Hides
  store : v.store.Hides

theorem Hidden.withUploads {v : Volume} (h : v.Hidden) (u : Uploads) :
    { v with uploads := u }.Hidden :=
  ⟨h.ignores, h.entries, h.store⟩

theorem Hidden.dropPending {v : Volume} (h : v.Hidden) :
    { v with store := { v.store with pending := [] } }.Hidden :=
  ⟨h.ignores, h.entries, ⟨h.store.nodes, fun _ hpe => by cases hpe⟩⟩

theorem hidden_create {o : Options} (hs : o.ignoreSidecars = true) : (Volume.create o).Hidden :=
  ⟨hs, EntryCache.Hides.empty, Store.Hides.empty⟩

/-- A run that keeps `Hidden` once a fact about its arguments holds. -/
theorem keeps_of_guard {α : Type} {G : Prop} {x : VolM α} (hx : G → Keeps Hidden x) :
    ⦃fun v => ⌜v.Hidden ∧ G⌝⦄ x ⦃post⟨fun _ v => ⌜v.Hidden⌝, fun _ v => ⌜v.Hidden⌝⟩⦄ :=
  Triple.iff.2 fun v hv => Triple.iff.1 (hx hv.2) v hv.1

/-! ### The primitives -/

theorem onStore_hidden {α : Type} {x : StoreM α} (hx : Store.Kept Store.Hides x) :
    Keeps Hidden (onStore x) := by
  refine (triple_iff_run _ _ _ _).2 fun v0 hv0 => ?_
  have hrun := (triple_iff_run _ _ _ _).1 (onStore_spec x v0) v0 rfl
  have hs := hx v0.store hv0.store
  revert hrun
  rcases ((onStore x).run).run v0 with ⟨_ | a, v⟩
  all_goals
    rintro ⟨s, hr, rfl⟩
    rw [hr] at hs
    exact ⟨hv0.ignores, hv0.entries, hs⟩

/-- A call of the store that keeps it free of sidecars, behind an eviction: on absence the
eviction only forgets cached entries. -/
theorem guarded_hidden {α : Type} {x : StoreM α} (hx : Store.Kept Store.Hides x)
    (paths : List Path) : Keeps Hidden (evictOnNotFound paths (onStore x)) := by
  refine (triple_iff_run _ _ _ _).2 fun v0 hv0 => ?_
  have hrun := (triple_iff_run _ _ _ _).1 (evictOnNotFound_spec paths x v0) v0 rfl
  have hs := hx v0.store hv0.store
  revert hrun
  rcases ((evictOnNotFound paths (onStore x)).run).run v0 with ⟨_ | a, v⟩
  · rintro ⟨s, l, hr, rfl⟩
    rw [hr] at hs
    exact ⟨hv0.ignores, hv0.entries.foldl_remove l, hs⟩
  · rintro ⟨s, hr, rfl⟩
    rw [hr] at hs
    exact ⟨hv0.ignores, hv0.entries, hs⟩

theorem modifyEntries_hidden {f : EntryCache Entry → EntryCache Entry}
    (hf : ∀ c, c.Hides → (f c).Hides) : Keeps Hidden (modifyEntries f) := by
  unfold modifyEntries
  mvcgen
  rename_i v hv _
  exact ⟨hv.ignores, hf _ hv.entries, hv.store⟩

theorem modifyContent_hidden (f : ContentCache → ContentCache) : Keeps Hidden (modifyContent f) := by
  unfold modifyContent
  mvcgen
  rename_i v hv _
  exact ⟨hv.ignores, hv.entries, hv.store⟩

theorem cached_hidden (p : Path) : Keeps Hidden (cached p) := by
  unfold cached
  mvcgen
  rename_i v hv
  exact ⟨hv.ignores, hv.entries.get p, hv.store⟩

theorem put_hidden (p : Path) (hp : p.isSidecar = false) (e : Entry) :
    Keeps Hidden (modifyEntries (·.put p e)) :=
  modifyEntries_hidden fun _ hc => hc.put hp e

theorem add_hidden (p : Path) (hp : p.isSidecar = false) (e : Entry) :
    Keeps Hidden (modifyEntries (·.add p e)) :=
  modifyEntries_hidden fun _ hc => hc.add hp e

theorem remove_hidden (p : Path) : Keeps Hidden (modifyEntries (·.remove p)) :=
  modifyEntries_hidden fun _ hc => hc.remove p

theorem evict_hidden (p : Path) : Keeps Hidden (modifyEntries fun c => (c.evict p).2) :=
  modifyEntries_hidden fun _ hc => hc.evict p

/-- A fresh listing made while sidecars are ignored caches none. -/
theorem recordListing_hidden (ig : Bool) (dir : Path) (children : List Entry) :
    ⦃fun v => ⌜v.Hidden ∧ ig = true⌝⦄ modifyEntries (recordListing dir (keptChildren ig dir children))
    ⦃post⟨fun _ v => ⌜v.Hidden⌝, fun _ v => ⌜v.Hidden⌝⟩⦄ :=
  keeps_of_guard fun hig => modifyEntries_hidden fun _ hc =>
    hc.recordListing (hig ▸ keptChildren_not_sidecar dir children)

theorem storeRoot_hidden : Keeps Hidden (onStore Store.rootEntry) :=
  onStore_hidden (Store.counts_of_spec Store.rootEntry_spec (fun _ _ _ h => h.1)
    fun _ _ _ h => h.1).hides

theorem counted_hidden {α : Type} {x : StoreM α} (hx : Store.Counts x) (paths : List Path) :
    Keeps Hidden (evictOnNotFound paths (onStore x)) :=
  guarded_hidden hx.hides paths

/-! ### Lookups -/

/-- A sidecar path is refused before anything else: the volume stays as it was. -/
theorem resolve_sidecar_hidden {p : Path} (hs : p.isSidecar = true) : Keeps Hidden (resolve p) := by
  refine (triple_iff_run _ _ _ _).2 fun v0 hv0 => ?_
  rw [resolve_sidecar_run v0 hv0.ignores hs]
  exact hv0

theorem resolve_list_hidden (n : Nat) :
    (∀ p, p.count = n → Keeps Hidden (resolve p)) ∧
      (∀ d b, d.count = n → Keeps Hidden (list d b)) := by
  induction n using Nat.strong_induction_on with
  | _ n ih =>
    have hrd : ∀ d, ⦃fun v => ⌜v.Hidden ∧ d.count < n⌝⦄ resolve d
        ⦃post⟨fun _ v => ⌜v.Hidden⌝, fun _ v => ⌜v.Hidden⌝⟩⦄ :=
      fun d => keeps_of_guard fun hd => (ih d.count hd).1 d rfl
    have hld : ∀ d b, ⦃fun v => ⌜v.Hidden ∧ d.count < n⌝⦄ list d b
        ⦃post⟨fun _ v => ⌜v.Hidden⌝, fun _ v => ⌜v.Hidden⌝⟩⦄ :=
      fun d b => keeps_of_guard fun hd => (ih d.count hd).2 d b rfl
    have hroot := storeRoot_hidden
    have hlc := fun paths parent d name => counted_hidden (Store.counts_of_spec
      (Store.lookupChild_spec parent d name) (fun _ _ _ h => h.1) fun _ _ _ h => h.1) paths
    have hls := fun paths e d => counted_hidden (Store.counts_of_spec (Store.listChildren_spec e d)
      (fun _ _ _ h => h.1) fun _ _ _ h => h.1) paths
    have hrec := recordListing_hidden
    have hc := cached_hidden
    have hrm := remove_hidden
    have hr : ∀ p, p.count = n → Keeps Hidden (resolve p) := by
      intro p hp
      subst hp
      cases hs : p.isSidecar with
      | true => exact resolve_sidecar_hidden hs
      | false =>
        cases hsp : p.split? with
        | none =>
          have hput := put_hidden Path.root rfl
          rw [resolve_root hsp]
          mvcgen [screened, lookRoot, hroot, hc, hput, -cached_spec, -onStore_spec]
        | some dn =>
          have hadd := add_hidden p hs
          rw [resolve_below hsp]
          mvcgen [screened, lookBelow, healMiss, hrd, hld, hlc, hc, hadd, hrm, -cached_spec,
            -onStore_spec, -resolve_spec, -list_spec]
          all_goals exact ⟨‹_›, Path.count_lt_of_split? hsp⟩
    refine ⟨hr, fun d b hd => ?_⟩
    have hrdir := hr d hd
    rw [list_eq]
    mvcgen [fetchListing, hrdir, hls, hrec, -cached_spec, -onStore_spec, -resolve_spec,
      -list_spec]
    all_goals exact ⟨‹_›, ‹Hidden _›.ignores⟩

theorem resolve_hidden (p : Path) : Keeps Hidden (resolve p) :=
  (resolve_list_hidden p.count).1 p rfl

theorem list_hidden (d : Path) (b : Bool) : Keeps Hidden (list d b) :=
  (resolve_list_hidden d.count).2 d b rfl

/-- What resolves is no sidecar path. -/
theorem resolve_found (p : Path) :
    ⦃fun v => ⌜v.Hidden⌝⦄ resolve p
    ⦃post⟨fun _ v => ⌜v.Hidden ∧ p.isSidecar = false⌝, fun _ v => ⌜v.Hidden⌝⟩⦄ := by
  refine (triple_iff_run _ _ _ _).2 fun v0 hv0 => ?_
  cases hs : p.isSidecar with
  | true =>
    rw [resolve_sidecar_run v0 hv0.ignores hs]
    exact hv0
  | false =>
    have hrun := (triple_iff_run _ _ _ _).1 (resolve_hidden p) v0 hv0
    revert hrun
    rcases ((resolve p).run).run v0 with ⟨_ | _, v⟩
    · exact id
    · exact fun h => ⟨h, rfl⟩

/-! ### The operations

Each change is kept hidden when the path it makes is no sidecar path; what it looks up first
resolves, so it is none either. -/

theorem refresh_hidden (p : Path) : Keeps Hidden (refresh p) := by
  have hr := resolve_hidden p
  have he := evict_hidden p
  unfold refresh
  mvcgen [hr, he, -resolve_spec]

theorem openRead_hidden (p : Path) : Keeps Hidden (openRead p) := by
  have hr := resolve_hidden p
  have hd := fun paths e => counted_hidden (download_counts e p) paths
  have hc := modifyContent_hidden
  unfold openRead
  mvcgen [hr, hd, hc, -resolve_spec, -onStore_spec]

theorem createDir_hidden {p : Path} (hp : p.isSidecar = false) : Keeps Hidden (createDir p) := by
  have hw := @checkWritable_keeps Hidden p
  have hx := resolveExisting_keeps resolve_hidden p
  have hpf := resolveParentFolder_keeps resolve_hidden p
  have hcf := fun paths parent => guarded_hidden (Store.createFolder_hides parent hp) paths
  have hadd := add_hidden p hp
  unfold createDir
  mvcgen [hw, hx, hpf, hcf, hadd, -checkWritable_spec, -resolveExisting_spec,
    -resolveParentFolder_spec, -onStore_spec]

theorem delete_hidden (p : Path) : Keeps Hidden (delete p) := by
  have hw := @checkWritable_keeps Hidden p
  have hr := resolve_hidden p
  have hh := fun paths e => counted_hidden (hasChildren_counts e p) paths
  have hrm := fun paths e => guarded_hidden (Store.remove_hides e p) paths
  have hE := remove_hidden p
  have hC := modifyContent_hidden
  unfold delete
  mvcgen [hw, hr, hh, hrm, hE, hC, -checkWritable_spec, -resolve_spec, -onStore_spec]

theorem copy_hidden (src : Path) {target : Path} (ht : target.isSidecar = false) (replace : Bool) :
    Keeps Hidden (copy src target replace) := by
  have hw := @checkWritable_keeps Hidden target
  have hr := resolve_hidden src
  have hx := resolveExisting_keeps resolve_hidden target
  have hd := delete_hidden target
  have hpf := resolveParentFolder_keeps resolve_hidden target
  have hcp := fun paths se parent =>
    guarded_hidden (Store.copy_hides se parent src ht replace) paths
  have hadd := add_hidden target ht
  have hC := modifyContent_hidden
  unfold copy
  mvcgen [hw, hr, hx, hd, hpf, hcp, hadd, hC, -checkWritable_spec, -resolve_spec,
    -resolveExisting_spec, -resolveParentFolder_spec, -onStore_spec]

theorem moveFolderEntries_hidden (s : Path) {t : Path} (ht : t.isSidecar = false) (e : Entry) :
    Keeps Hidden (modifyEntries fun c => ((c.removeBelow s).2).move s t e) :=
  modifyEntries_hidden fun _ hc => (hc.removeBelow s).move ht e

theorem moveFileEntries_hidden (s : Path) {t : Path} (ht : t.isSidecar = false) (e : Entry) :
    Keeps Hidden (modifyEntries fun c => (c.remove s).add t e) :=
  modifyEntries_hidden fun _ hc => (hc.remove s).add ht e

theorem rename_hidden (src : Path) {target : Path} (ht : target.isSidecar = false) :
    Keeps Hidden (rename src target) := by
  have hw := @checkWritable_keeps Hidden src
  have hr := resolve_hidden src
  have hpf := resolveParentFolder_keeps resolve_hidden target
  have hst := fun paths se parent => guarded_hidden (Store.rename_hides se parent src ht) paths
  have hmf := moveFolderEntries_hidden src ht
  have hmv := moveFileEntries_hidden src ht
  have hC := modifyContent_hidden
  unfold rename
  mvcgen [hw, hr, hpf, hst, hmf, hmv, hC, -checkWritable_spec, -resolve_spec,
    -resolveParentFolder_spec, -onStore_spec]

/-- A move lands at its target, or below it under the source's own name. -/
theorem relocate_hidden {src : Path} (hs : src.isSidecar = false) (se : Entry) {target : Path}
    (ht : target.isSidecar = false) (into : Bool) : Keeps Hidden (relocate src se target into) := by
  have hpf := resolveParentFolder_keeps resolve_hidden
  have hmf := fun paths parent (final : Path) => keeps_of_guard fun (hf : final.isSidecar = false) =>
    guarded_hidden (Store.moveFolder_hides se parent src hf) paths
  have hme := fun paths parent (final : Path) => keeps_of_guard fun (hf : final.isSidecar = false) =>
    guarded_hidden (Store.moveEntry_hides se parent src hf) paths
  have hmfe := fun (final : Path) e => keeps_of_guard fun (hf : final.isSidecar = false) =>
    moveFolderEntries_hidden src hf e
  have hmve := fun (final : Path) e => keeps_of_guard fun (hf : final.isSidecar = false) =>
    moveFileEntries_hidden src hf e
  have hC := modifyContent_hidden
  unfold relocate
  mvcgen [hpf, hmf, hme, hmfe, hmve, hC, -resolveParentFolder_spec, -onStore_spec]
  all_goals
    first
    | exact ⟨‹_›, ht⟩
    | exact ⟨‹_›, (Path.isSidecar_join_fileName? ‹src.fileName? = some _› target).trans hs⟩

theorem move_hidden (src : Path) {target : Path} (ht : target.isSidecar = false) (replace : Bool) :
    Keeps Hidden (move src target replace) := by
  have hw := @checkWritable_keeps Hidden src
  have hr := resolve_found src
  have hx := resolveExisting_keeps resolve_hidden target
  have hh := fun paths e => counted_hidden (hasChildren_counts e target) paths
  have hd := delete_hidden target
  have hrl := fun se into => keeps_of_guard fun (hs : src.isSidecar = false) =>
    relocate_hidden hs se ht into
  have hrn := rename_hidden src ht
  unfold move
  mvcgen [hw, hr, hx, hh, hd, hrl, hrn, -checkWritable_spec, -resolve_spec, -resolveExisting_spec,
    -onStore_spec]
  all_goals
    first
    | exact ‹_ ∧ _›.1
    | exact ⟨‹_›, ‹_ ∧ src.isSidecar = false›.2⟩

/-- An open keeps the volume hidden: the store only counts it, and the upload it starts is
seen by the records only. -/
theorem openWrite_hidden (p : Path) (replace append : Bool) :
    Keeps Hidden (openWrite p replace append) := by
  have hw := @checkWritable_keeps Hidden p
  have hx := resolveExisting_keeps resolve_hidden p
  have hpf := resolveParentFolder_keeps resolve_hidden p
  have hup := fun paths parent => counted_hidden (upload_counts parent p replace append) paths
  unfold openWrite
  mvcgen [hw, hx, hpf, hup, -checkWritable_spec, -resolveExisting_spec, -resolveParentFolder_spec,
    -onStore_spec]
  all_goals exact Hidden.withUploads ‹_› _

theorem commit_hidden (h : Handle) (hp : h.path.isSidecar = false) : Keeps Hidden (commit h) := by
  have hst := onStore_hidden (Store.commitUpload_hides hp h.buffer)
  have hadd := add_hidden h.path hp
  have hC := modifyContent_hidden
  have hcl := @close_keeps Hidden (fun _ u hv => hv.withUploads u) h
  unfold commit
  mvcgen [hst, hadd, hC, hcl, -onStore_spec]

theorem registerEntry_hidden {p : Path} (hp : p.isSidecar = false) (e : Entry) :
    Keeps Hidden (registerEntry p e) := by
  have hC := modifyContent_hidden
  have hadd := add_hidden p hp e
  unfold registerEntry
  mvcgen [hC, hadd]

/-- The copies that finish later were made at paths that are no sidecars. -/
theorem completeCopies_hidden : Keeps Hidden completeCopies := by
  have hadd := fun (p : Path) e => keeps_of_guard fun (hp : p.isSidecar = false) => add_hidden p hp e
  unfold completeCopies
  mvcgen [hadd] invariants
  · post⟨fun xs v => ⌜v.Hidden ∧ ∀ pe ∈ xs.1.suffix, pe.1.isSidecar = false⌝,
      fun _ v => ⌜v.Hidden⌝⟩
  all_goals
    first
    | exact ‹_ ∧ _›.1
    | exact (‹Hidden _›).dropPending
    | exact ⟨(‹Hidden _›).dropPending, (‹Hidden _›).store.pending⟩
    | (obtain ⟨hv, hs⟩ := ‹_ ∧ _›; exact ⟨hv, hs _ (List.mem_cons_self ..)⟩)
    | (obtain ⟨-, hs⟩ := ‹_ ∧ _›; exact ⟨‹_›, fun pe hpe => hs pe (List.mem_cons_of_mem _ hpe)⟩)

end Volume

namespace Mount

open Volume

/-- An action that asks for no sidecar path to be made: folders made, uploads opened, copies,
moves, renames and registered entries go to paths that are no sidecars, and an outside change
leaves the store free of them. -/
def Action.MakesNoSidecar : Action → Prop
  | .request (.createDir p) => p.isSidecar = false
  | .request (.copy _ target _) => target.isSidecar = false
  | .request (.move _ target _) => target.isSidecar = false
  | .request (.rename _ target) => target.isSidecar = false
  | .request (.registerEntry p _) => p.isSidecar = false
  | .openWrite p _ _ => p.isSidecar = false
  | .external f => ∀ s, s.Hides → (f s).Hides
  | _ => True

/-- Every call of the volume that makes no sidecar path keeps it hidden. -/
theorem hidden_request (m : Mount) (hm : m.volume.Hidden) (r : Request)
    (hr : (Action.request r).MakesNoSidecar) : (m.request r).volume.Hidden := by
  cases r with
  | resolve p => exact (resolve_hidden p).run hm
  | refresh p => exact (refresh_hidden p).run hm
  | exists? p => exact (exists?_keeps resolve_hidden p).run hm
  | metadata p => exact (metadata_keeps resolve_hidden p).run hm
  | checkAccess p modes => exact (checkAccess_keeps resolve_hidden p modes).run hm
  | list d useCache => exact (list_hidden d useCache).run hm
  | listFiltered d keep => exact (listFiltered_keeps list_hidden d keep).run hm
  | createDir p => exact (createDir_hidden hr).run hm
  | delete p => exact (delete_hidden p).run hm
  | copy src target replace => exact (copy_hidden src hr replace).run hm
  | move src target replace => exact (move_hidden src hr replace).run hm
  | rename src target => exact (rename_hidden src hr).run hm
  | registerEntry p e => exact (registerEntry_hidden hr e).run hm
  | openRead p => exact (openRead_hidden p).run hm
  | completeCopies => exact completeCopies_hidden.run hm
  | storeRoot => exact storeRoot_hidden.run hm

/-- The volume is hidden, and no open handle is at a sidecar path. -/
structure SidecarFree (m : Mount) : Prop where
  volume : m.volume.Hidden
  handles : ∀ n h, m.handle? n = some h → h.path.isSidecar = false

theorem sidecarFree_create {o : Options} (hs : o.ignoreSidecars = true) :
    (Mount.create o).SidecarFree where
  volume := hidden_create hs
  handles n h hh := by
    simp [handle?, Mount.create] at hh

theorem SidecarFree.erase {m : Mount} (hm : m.SidecarFree) (n : Nat) :
    ∀ n' h, (m.handles.erase n).get? n' = some h → h.path.isSidecar = false := by
  intro n' h hh
  rw [Table.get?_erase] at hh
  split at hh
  · cases hh
  · exact hm.handles n' h hh

/-- An action that makes no sidecar path keeps the mount free of them. -/
theorem sidecarFree_act (m : Mount) (a : Action) (hm : m.SidecarFree) (ha : a.MakesNoSidecar) :
    (m.act a).SidecarFree := by
  cases a with
  | request r =>
    refine ⟨hidden_request m hm.volume r ha, fun n h hh => ?_⟩
    change (m.request r).handles.get? n = some h at hh
    rw [(request_handles m r).1] at hh
    exact hm.handles n h hh
  | openWrite p replace append =>
    have hv := (openWrite_hidden p replace append).run hm.volume
    have hup := openWrite_uploads m.volume p replace append
    rw [act_openWrite]
    revert hv hup
    rcases ((Volume.openWrite p replace append).run).run m.volume with ⟨_ | hd, w⟩
    · intro hv _
      exact ⟨hv, hm.handles⟩
    · rintro hv ⟨-, hpath, -⟩
      refine ⟨hv, fun n h hh => ?_⟩
      simp only [handle?, Table.get?_insert] at hh
      split at hh
      · cases hh
        rw [hpath]
        exact ha
      · exact hm.handles n h hh
  | write n bytes =>
    rw [act_write]
    cases hh : m.handle? n with
    | none => exact hm
    | some h =>
      refine ⟨?_, fun n' h' hh' => ?_⟩
      · show (m.volume.write h bytes).2.Hidden
        rw [volume_write_eq]
        exact hm.volume.withUploads _
      · simp only [handle?, Table.get?_insert] at hh'
        split at hh'
        · cases hh'
          rw [(write_handle m.volume h bytes).1]
          exact hm.handles n h hh
        · exact hm.handles n' h' hh'
  | commit n =>
    rw [act_commit]
    cases hh : m.handle? n with
    | none => exact hm
    | some h => exact ⟨(commit_hidden h (hm.handles n h hh)).run hm.volume, hm.erase n⟩
  | abandon n =>
    rw [act_abandon]
    cases hh : m.handle? n with
    | none => exact hm
    | some h =>
      exact ⟨(@close_keeps Hidden (fun _ u hv => hv.withUploads u) h).run hm.volume, hm.erase n⟩
  | external f =>
    exact ⟨⟨hm.volume.ignores, hm.volume.entries, ha _ hm.volume.store⟩, hm.handles⟩

/-- With sidecars ignored, along every run that asks for no sidecar path to be made, no reachable
state caches one or holds one in its store or its open uploads; resolving one fails with
`notFound` and changes nothing, and a fresh listing answers none. -/
theorem sidecars_stay_hidden (o : Options) (hs : o.ignoreSidecars = true) (acts : List Action)
    (h : Along (fun _ a => a.MakesNoSidecar) (Mount.create o) acts) :
    let m := (Mount.create o).replay acts
    (∀ q, m.volume.entries.Mentions q → q.isSidecar = false) ∧
      (∀ q, (m.volume.store.node? q).isSome → q.isSidecar = false) ∧
      (∀ pe ∈ m.volume.store.pending, pe.1.isSidecar = false) ∧
      (∀ n h, m.handle? n = some h → h.path.isSidecar = false) ∧
      (∀ p, p.isSidecar = true →
        ((Volume.resolve p).run).run m.volume = (.error (.notFound p), m.volume)) ∧
      ∀ d l, (((Volume.list d false).run).run m.volume).1 = .ok l → ∀ q ∈ l, q.isSidecar = false := by
  have hm := replay_of_along (fun m a hm ha => sidecarFree_act m a hm ha) (sidecarFree_create hs) h
  exact ⟨hm.volume.entries, hm.volume.store.nodes, hm.volume.store.pending, hm.handles,
    fun _ hp => resolve_sidecar_run _ hm.volume.ignores hp,
    fun _ _ hl => list_fresh_answer _ hm.volume.ignores hl⟩

theorem sidecars_hidden_after_upload_and_rename :
    let o : Options := { ignoreSidecars := true }
    let d := Path.root.join "a"
    let acts := [Action.request (.createDir d), .openWrite (d.join "f") false false, .write 0 [1, 2],
      .commit 0, .request (.createDir (d.join "b")),
      .request (.rename (d.join "f") ((d.join "b").join "g")), .request (.list d false),
      .external (fun s => s.externalRemove (d.join "b"))]
    Along (fun _ a => a.MakesNoSidecar) (Mount.create o) acts ∧
      (∀ q, ((Mount.create o).replay acts).volume.entries.Mentions q → q.isSidecar = false) ∧
      ∀ q, (((Mount.create o).replay acts).volume.store.node? q).isSome → q.isSidecar = false := by
  intro o d acts
  have hn : ∀ (p : Path) (n : String), isComponentName n = true → isSidecarName n = false →
      (p.join n).isSidecar = false :=
    fun p n hc hs => (Path.isSidecar_join p hc).trans hs
  have hr : Along (fun _ a => a.MakesNoSidecar) (Mount.create o) acts :=
    ⟨hn _ "a" (by cbv) (by decide), hn _ "f" (by cbv) (by decide), trivial, trivial,
      hn _ "b" (by cbv) (by decide), hn _ "g" (by cbv) (by decide), trivial,
      fun _ hs => hs.detach _, trivial⟩
  obtain ⟨hc, hs, -⟩ := sidecars_stay_hidden o rfl acts hr
  exact ⟨hr, hc, hs⟩

end Mount

end FrontCache
