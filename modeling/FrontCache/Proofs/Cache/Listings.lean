import Mathlib.Data.List.Nodup
import FrontCache.Proofs.Cache.Agreement
/-!
# Cached listings name children, once each

`EntryCache.WellListed c`: every listing that `c` holds for a folder `d` names paths whose
parent is `d`, none twice. It says nothing about the store, so it survives whatever other
writers do to it.

Main statements: the empty cache is well listed, and every operation of the cache keeps it,
`putListing` given a list of that shape (`WellListed.apply`); so does any sequence of
operations from the empty cache (`wellListed_run`). `add` keeps it by its membership test,
`remove` by filtering, a fresh listing by keeping the first child of each name. The delicate
case is `move`, which carries the source's listing over with each child renamed below the
target: the renamed paths are distinct only because the children of one folder have
distinct names (`carried`).
-/
namespace FrontCache

namespace EntryCache

variable {α : Type}

/-- Every cached listing of a folder names children of the folder, none twice. -/
def WellListed (c : EntryCache α) : Prop :=
  ∀ d l, c.listing? d = some l → l.Nodup ∧ ∀ q ∈ l, q.parent? = some d

/-- A listing of the children of `s` carried over to `t`, each child renamed below `t`, names
children of `t`, none twice. -/
theorem carried {s t : Path} {l : List Path} (hn : l.Nodup) (hl : ∀ q ∈ l, q.parent? = some s) :
    (l.filterMap fun q => q.fileName?.map t.join).Nodup ∧
      ∀ r ∈ l.filterMap (fun q => q.fileName?.map t.join), r.parent? = some t := by
  have hmap : l.filterMap (fun q => q.fileName?.map t.join) = l.map (·.reroot s t) :=
    List.filterMap_eq_map_iff_forall_eq_some.2 fun q hm =>
      Path.join_fileName?_of_parent? (hl q hm) t
  have hwithin : ∀ q ∈ l, Store.within q s = true := by
    intro q hm
    obtain ⟨_, hs⟩ := Path.split?_of_parent? (hl q hm)
    exact Store.within_of_isBelow (Store.isBelow_of_split? hs)
  rw [hmap]
  refine ⟨hn.map_on fun a ha b hb hab =>
    Store.reroot_injective t (hwithin a ha) (hwithin b hb) hab,
    fun r hr => ?_⟩
  obtain ⟨q, hq, rfl⟩ := List.mem_map.1 hr
  obtain ⟨n, hs⟩ := Path.split?_of_parent? (hl q hq)
  have hrs := Store.split?_reroot hs (Store.within_refl s) t
  rw [Path.reroot_self] at hrs
  exact Path.parent?_of_split? hrs

theorem wellListed_empty : ({} : EntryCache α).WellListed := by
  intro d l h
  simp [listing?] at h

theorem wellListed_clear (c : EntryCache α) : c.clear.WellListed := by
  intro d l h
  simp [clear, listing?] at h

namespace WellListed

variable {c : EntryCache α}

theorem get (h : c.WellListed) (p : Path) : (c.get p).2.WellListed := fun d l hl =>
  h d l (by rwa [listing?_get] at hl)

theorem put (h : c.WellListed) (p : Path) (e : α) : (c.put p e).WellListed := fun d l hl =>
  h d l (by rwa [listing?_put] at hl)

theorem evict (h : c.WellListed) (p : Path) : (c.evict p).2.WellListed := fun d l hl =>
  h d l (by rwa [listing?_evict] at hl)

theorem putListing (h : c.WellListed) {d : Path} {l : List Path} (hn : l.Nodup)
    (hl : ∀ q ∈ l, q.parent? = some d) : (c.putListing d l).WellListed := by
  intro d' l' h'
  rw [listing?_putListing] at h'
  split at h'
  · rename_i hd
    subst hd
    cases h'
    exact ⟨hn, hl⟩
  · exact h d' l' h'

theorem eraseListing (h : c.WellListed) (d : Path) :
    ({ c with listings := c.listings.erase d } : EntryCache α).WellListed := by
  intro d' l h'
  apply h d' l
  by_cases hd : d' = d
  · subst hd
    simp [listing?] at h'
  · simpa [listing?, hd] using h'

/-- `add` appends its path to the parent's listing only when the path is not there. -/
theorem add (h : c.WellListed) (p : Path) (e : α) : (c.add p e).WellListed := by
  intro d l hl
  rw [listing?_add] at hl
  split at hl
  · rename_i hc
    cases hl
    have hold : ((c.listing? d).getD []).Nodup ∧
        ∀ q ∈ (c.listing? d).getD [], q.parent? = some d := by
      cases hd : c.listing? d with
      | none => simp
      | some l0 => exact h d l0 hd
    refine ⟨List.nodup_append.2 ⟨hold.1, List.nodup_singleton p, fun a ha b hb => ?_⟩,
      fun q hq => ?_⟩
    · rw [List.mem_singleton] at hb
      subst hb
      rintro rfl
      simp [ha] at hc
    · rcases List.mem_append.1 hq with hq | hq
      · exact hold.2 q hq
      · rw [List.mem_singleton.1 hq]
        exact hc.1
  · exact h d l hl

theorem remove (h : c.WellListed) (p : Path) : (c.remove p).WellListed := by
  intro d l hl
  rw [listing?_remove] at hl
  split at hl
  · cases hl
  · split at hl
    · obtain ⟨l0, hl0, rfl⟩ := Option.map_eq_some_iff.1 hl
      obtain ⟨hn, hq⟩ := h d l0 hl0
      exact ⟨hn.filter _, fun q hm => hq q (List.mem_filter.1 hm).1⟩
    · exact h d l hl

theorem foldl_remove (h : c.WellListed) (l : List Path) :
    (l.foldl EntryCache.remove c).WellListed := by
  induction l generalizing c with
  | nil => exact h
  | cons q rest ih => exact ih (h.remove q)

theorem removeBelow (h : c.WellListed) (a : Path) : (c.removeBelow a).2.WellListed := by
  intro d l hl
  rw [listing?_removeBelow] at hl
  split at hl
  · cases hl
  · exact h d l hl

theorem move (h : c.WellListed) (s t : Path) (e : α) : (c.move s t e).WellListed := by
  have h2 := ((h.eraseListing s).remove s).add t e
  unfold EntryCache.move
  dsimp only
  split
  · rename_i l hl
    obtain ⟨hn, hq⟩ := h s l hl
    exact h2.putListing (carried hn hq).1 (carried hn hq).2
  · exact h2

end WellListed

/-- A fresh listing of `dir` cached as `list` caches it: the kept children's entries, the
children of the old listing that are gone forgotten, and the kept paths as the listing. -/
theorem WellListed.recordListing {c : EntryCache Entry} (h : c.WellListed) (ig : Bool)
    (dir : Path) (children : List Entry) :
    (Volume.recordListing dir (Volume.keptChildren ig dir children) c).WellListed := by
  have hput : ∀ (l : List (Path × Entry)) (c : EntryCache Entry), c.WellListed →
      (l.foldl (fun c pe => c.put pe.1 pe.2) c).WellListed := by
    intro l
    induction l with
    | nil => exact fun c hc => hc
    | cons pe rest ih => exact fun c hc => ih _ (hc.put pe.1 pe.2)
  obtain ⟨hkept, hnodup⟩ := Volume.keptChildren_spec ig dir children
  unfold Volume.recordListing
  dsimp only
  refine ((hput _ c h).foldl_remove _).putListing hnodup fun q hq => ?_
  obtain ⟨pe, hpe, rfl⟩ := List.mem_map.1 hq
  obtain ⟨child, -, hname, rfl⟩ := hkept pe hpe
  exact Path.parent?_join dir hname

/-! ### Runs of operations -/

/-- A call on the entry cache. -/
inductive Op (α : Type) where
  | get (p : Path)
  | put (p : Path) (e : α)
  | evict (p : Path)
  | add (p : Path) (e : α)
  | remove (p : Path)
  | move (s t : Path) (e : α)
  | removeBelow (a : Path)
  | clear
  | putListing (d : Path) (l : List Path)

namespace Op

/-- The cache after the call. -/
def apply : Op α → EntryCache α → EntryCache α
  | get p, c => (c.get p).2
  | put p e, c => c.put p e
  | evict p, c => (c.evict p).2
  | add p e, c => c.add p e
  | remove p, c => c.remove p
  | move s t e, c => c.move s t e
  | removeBelow a, c => (c.removeBelow a).2
  | clear, c => c.clear
  | putListing d l, c => c.putListing d l

/-- A listing handed over names children of its folder, none twice, as a fresh listing does. -/
def Fair : Op α → Prop
  | putListing d l => l.Nodup ∧ ∀ q ∈ l, q.parent? = some d
  | _ => True

end Op

/-- The cache that a sequence of calls leaves, from an empty one. -/
def run (ops : List (Op α)) : EntryCache α := ops.foldl (fun c o => o.apply c) {}

/-- One call keeps the listings well formed. -/
theorem WellListed.apply {c : EntryCache α} (h : c.WellListed) {o : Op α} (ho : o.Fair) :
    (o.apply c).WellListed := by
  cases o with
  | get p => exact h.get p
  | put p e => exact h.put p e
  | evict p => exact h.evict p
  | add p e => exact h.add p e
  | remove p => exact h.remove p
  | move s t e => exact h.move s t e
  | removeBelow a => exact h.removeBelow a
  | clear => exact wellListed_clear c
  | putListing d l => exact h.putListing ho.1 ho.2

theorem WellListed.foldl_apply {c : EntryCache α} (h : c.WellListed) (ops : List (Op α))
    (hops : ∀ o ∈ ops, o.Fair) : (ops.foldl (fun c o => o.apply c) c).WellListed := by
  induction ops generalizing c with
  | nil => exact h
  | cons o rest ih =>
    exact ih (h.apply (hops o (List.mem_cons_self ..))) fun o' ho' =>
      hops o' (List.mem_cons_of_mem _ ho')

/-- Any sequence of fair calls from the empty cache leaves its listings well formed. -/
theorem wellListed_run (ops : List (Op α)) (hops : ∀ o ∈ ops, o.Fair) : (run ops).WellListed :=
  wellListed_empty.foldl_apply ops hops

end EntryCache

end FrontCache
