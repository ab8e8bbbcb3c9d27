import FrontCache.Proofs.Mount.Shape
import FrontCache.Proofs.Store.UpClosed
/-!
# Moving a folder leaves nothing of it in the entry cache

After the store has moved a folder `src` to its final path `f`, the volume forgets what the
cache holds strictly below `src` and moves the rest with `EntryCache.move`. What that leaves
is `EntryCache.FolderMoved`: nothing cached within `src`, `f` cached with the entry the store
returned and listed once in its folder, `src` gone from its folder's listing, and `f` given the
listing `src` had, each child renamed below `f`.

The last of these speaks of the listing `src` has when the store's move returns, not of the one
it had when the call began: the lookups a move makes first can drop it. Resolving the target's
folder may list the source's folder again, and when an outside writer reports the source under
another name the listing no longer shows it, so the source is forgotten with its listing
(`rename_after_relisting_loses_listing`).

A move touches the entry cache only. The content cache keeps its blobs under their old paths, so
a folder moved away, changed and moved back serves what was cached before
(`folder_round_trip_serves_stale_blob`).

Main statements: from every volume whose cached listings are well formed and whose store is
up-closed, a rename whose source resolves to a folder, and a move of a folder, leave the cache
as `FolderMoved` says (`folder_move_clears_source`). Every state that a fresh mount reaches with
the store's hooks as its only outside changes is such a volume (`moveReady_along_hook_runs`).
-/
namespace FrontCache

namespace EntryCache

variable {α : Type}

/-- Forgetting a path forgets its listing, so erasing that listing first changes nothing. -/
theorem listing?_remove_erase (c : EntryCache α) (s d : Path) :
    (({ c with listings := c.listings.erase s } : EntryCache α).remove s).listing? d =
      (c.remove s).listing? d := by
  rw [listing?_remove, listing?_remove]
  by_cases hds : d = s
  · simp [hds]
  · simp [hds, listing?]

/-- A move gives the target the source's listing, each child renamed below the target. -/
theorem listing?_move_target {c : EntryCache α} {s : Path} {l : List Path}
    (h : c.listing? s = some l) (t : Path) (e : α) :
    (c.move s t e).listing? t = some (l.filterMap fun q => q.fileName?.map t.join) := by
  unfold move
  dsimp only
  rw [h]
  simp

/-- Elsewhere, and at the target when the source has no listing, a move is `remove` then
`add`. -/
theorem listing?_move_of_ne (c : EntryCache α) (s t d : Path) (e : α)
    (hd : d ≠ t ∨ c.listing? s = none) :
    (c.move s t e).listing? d = ((c.remove s).add t e).listing? d := by
  unfold move
  dsimp only
  split
  · rename_i l hl
    rw [listing?_putListing, if_neg (hd.resolve_right (by simp [hl])), listing?_add,
      listing?_add, listing?_remove_erase]
  · rw [listing?_add, listing?_add, listing?_remove_erase]

/-- What a folder move from `src` to `f` leaves in the entry cache: `c'` is the cache `c` as the
store's move left it, with what lies strictly below the source forgotten and the source moved
to `f` with the entry `e`. -/
structure FolderMoved (c c' : EntryCache α) (src f : Path) (e : α) : Prop where
  update : c' = ((c.removeBelow src).2).move src f e
  cleared : ∀ q, Store.within q src = true → c'.entries.get? q = none ∧ c'.listing? q = none
  entry : c'.entries.get? f = some e
  listedOnce : ∃ d l, f.parent? = some d ∧ c'.listing? d = some l ∧ l.count f = 1
  unlisted : ∀ d l, src.parent? = some d → c'.listing? d = some l → src ∉ l
  carried : ∀ l, c.listing? src = some l →
    c'.listing? f = some (l.filterMap fun q => q.fileName?.map f.join)

theorem FolderMoved.of_update {c c' : EntryCache α} {src f : Path} {e : α}
    (hc : c' = ((c.removeBelow src).2).move src f e) (hw : c'.WellListed)
    (hout : Store.within f src = false) (hpar : src.parent? ≠ some f) (hf : f.parent? ≠ none) :
    FolderMoved c c' src f e := by
  set c1 := (c.removeBelow src).2 with hc1
  have hmid : ∀ d, d ≠ f → c'.listing? d = ((c1.remove src).add f e).listing? d := fun d hd => by
    rw [hc]
    exact listing?_move_of_ne _ _ _ _ _ (Or.inl hd)
  obtain ⟨d, hd⟩ := Option.ne_none_iff_exists'.1 hf
  obtain ⟨name, hfs⟩ := Path.split?_of_parent? hd
  have hdf : d ≠ f := (Store.ne_of_split? hfs).symm
  refine ⟨hc, fun q hq => ?_, by rw [hc, get?_move, if_pos rfl], ?_, ?_, ?_⟩
  · have hqf : q ≠ f := by
      rintro rfl
      rw [hq] at hout
      cases hout
    have hbelow : q ≠ src → q.isBelow src = true := fun hne =>
      (Store.within_cases hq).resolve_left hne
    constructor
    · rw [hc, get?_move, if_neg hqf]
      split
      · rfl
      · rw [get?_removeBelow, if_pos (hbelow ‹_›)]
    · have hfq : f.parent? ≠ some q := fun hp => by
        obtain ⟨n, hs⟩ := Path.split?_of_parent? hp
        rw [Store.within_of_split? hs hq] at hout
        cases hout
      rw [hmid q hqf, listing?_add, if_neg (fun h => hfq h.1), listing?_remove]
      split
      · rfl
      · rename_i hne
        rw [if_neg fun hp => ?_, listing?_removeBelow, if_pos (hbelow hne)]
        obtain ⟨n, hs⟩ := Path.split?_of_parent? hp
        exact Store.not_within_of_split? hs hq
  · have hmem : ∃ l, c'.listing? d = some l ∧ f ∈ l := by
      rw [hmid d hdf, listing?_add]
      split
      · exact ⟨_, rfl, by simp⟩
      · rename_i hno
        cases hl : (c1.remove src).listing? d with
        | none => simp [hd, hl] at hno
        | some l => exact ⟨l, rfl, by simpa [hd, hl] using hno⟩
    obtain ⟨l, hl, hfl⟩ := hmem
    exact ⟨d, l, hd, hl, List.count_eq_one_of_mem (hw d l hl).1 hfl⟩
  · intro p l hp hl
    have hpf : p ≠ f := fun h => hpar (h ▸ hp)
    obtain ⟨n, hs⟩ := Path.split?_of_parent? hp
    have hrem : (c1.remove src).listing? p = (c1.listing? p).map (·.filter (· != src)) := by
      rw [listing?_remove, if_neg (Store.ne_of_split? hs).symm, if_pos hp]
    have hfs' : src ≠ f := by
      rintro rfl
      rw [Store.within_refl] at hout
      cases hout
    rw [hmid p hpf, listing?_add, hrem] at hl
    split at hl
    · cases hl
      intro hm
      rcases List.mem_append.1 hm with h1 | h1
      · cases h : c1.listing? p with
        | none => simp [h] at h1
        | some l0 => simp [h] at h1
      · exact hfs' (List.mem_singleton.1 h1)
    · obtain ⟨l0, -, rfl⟩ := Option.map_eq_some_iff.1 hl
      simp
  · intro l hl
    have h1 : c1.listing? src = some l := by
      rw [hc1, listing?_removeBelow, if_neg (by simp [Path.isBelow]), hl]
    rw [hc]
    exact listing?_move_target h1 f e

end EntryCache

namespace Volume

open Std.Do

set_option mvcgen.warning false

/-- Where a move of `src` put it in the store `s`: at `f`, outside the source, other than the
source's folder, under a folder path, holding the entry `e` that the move returned. -/
structure Landed (s : Store) (src f : Path) (e : Entry) : Prop where
  outside : Store.within f src = false
  notHolder : src.parent? ≠ some f
  hung : f.parent? ≠ none
  entry : s.entryAt f = some e

theorem landed_of_relocate {s s' : Store} (hu : s.UpClosed) {src dst : Path} {e : Entry}
    (h : s.relocate src dst = .ok (e, s')) : Landed s' src dst e := by
  obtain ⟨-, -, s1, hl, -, ⟨n, hn, he⟩, -⟩ := Store.relocate_eq_ok h
  obtain ⟨d, name, -, -, hs, -, -⟩ := Store.link_eq_ok hl
  refine ⟨Store.target_outside h, hu.source_parent_ne h, ?_, ?_⟩
  · rw [Path.parent?_of_split? hs]
    simp
  · simp [Store.entryAt, hn, he]

/-- A store call that succeeds only by moving `src` to `target` lands it, from an up-closed
store. -/
theorem guarded_landed {x : StoreM Entry} {src target : Path}
    {Q : Store → Entry → Store → Prop} {E : Store → Error → Store → Prop}
    (hx : ∀ s0, ⦃fun s => ⌜s = s0⌝⦄ x ⦃post⟨fun e s => ⌜Q s0 e s⌝, fun e s => ⌜E s0 e s⌝⟩⦄)
    (hq : ∀ s0 e s, Q s0 e s → ∃ k, { s0 with calls := k }.relocate src target = .ok (e, s))
    (paths : List Path) :
    ⦃fun v => ⌜v.store.UpClosed⌝⦄ evictOnNotFound paths (onStore x)
    ⦃post⟨fun e v => ⌜Landed v.store src target e⌝, fun _ _ => ⌜True⌝⟩⦄ := by
  refine (triple_iff_run _ _ _ _).2 fun v hu => ?_
  have h := (triple_iff_run _ _ _ _).1 (evictOnNotFound_spec paths x v) v rfl
  revert h
  rcases ((evictOnNotFound paths (onStore x)).run).run v with ⟨_ | e, w⟩
  · exact fun _ => trivial
  · rintro ⟨s, hs, rfl⟩
    obtain ⟨k, hr⟩ := hq _ _ _ (ok_of_triple (hx v.store) hs)
    exact landed_of_relocate (hu.of_counted ⟨k, rfl⟩) hr

/-- The up-closed store is kept by every lookup. -/
theorem upClosed_lookSteps : LookSteps fun v => v.store.UpClosed :=
  Store.upClosed_callSteps.steps.look

/-- A rename whose source resolves to a folder ends with the entry cache as the folder update
makes it from the cache the store's move left, and with the source landed at the target. -/
theorem rename_folder_spec {src target : Path} {v0 w : Volume} {se : Entry}
    (hu : v0.store.UpClosed) (hres : ((resolve src).run).run v0 = (.ok se, w))
    (hf : se.isFolder = true) :
    ⦃fun v => ⌜v = v0⌝⦄ rename src target
    ⦃post⟨fun e v => ⌜∃ c : EntryCache Entry, v.entries = ((c.removeBelow src).2).move src target e ∧
        Landed v.store src target e⌝, fun _ _ => ⌜True⌝⟩⦄ := by
  have hw : w.store.UpClosed := by
    have h := (resolve_keeps upClosed_lookSteps src).run hu
    rwa [hres] at h
  have hr : ⦃fun v => ⌜v = v0⌝⦄ resolve src ⦃post⟨fun r v => ⌜r = se ∧ v = w⌝, fun _ _ => ⌜False⌝⟩⦄ :=
    (triple_iff_run _ _ _ _).2 fun v hv => by
      subst hv
      rw [hres]
      exact ⟨rfl, rfl⟩
  have hpf := resolveParentFolder_keeps (resolve_keeps upClosed_lookSteps) target
  have hst := fun se' d parent => guarded_landed (Store.rename_spec se' parent src target)
    (fun _ _ _ h => h.2.2) [src, d]
  unfold rename modifyEntries modifyContent
  mvcgen [checkWritable_spec, hr, hpf, hst, -resolve_spec, -resolveParentFolder_spec, -onStore_spec]
  case vc1 =>
    rename_i hv _ _ h
    rw [h.1, hv]
  case vc2 =>
    rename_i h
    rw [h.2]
    exact hw
  case vc4 => exact ⟨_, rfl, by assumption⟩
  case vc5 =>
    obtain ⟨rfl, -⟩ := ‹_ = se ∧ _›
    exact absurd hf ‹_›


/-- A move of a folder ends with the entry cache as the folder update makes it from the cache the
store's move left, and with the source landed at its final path: the target, or the source's
name joined to it when moving into it. -/
theorem relocate_folder_spec {src target : Path} {se : Entry} {into : Bool}
    (hf : se.isFolder = true) :
    ⦃fun v => ⌜v.store.UpClosed⌝⦄ relocate src se target into
    ⦃post⟨fun _ v => ⌜∃ (f : Path) (e : Entry) (c : EntryCache Entry),
        (f = target ∨ into = true ∧ src.fileName?.map target.join = some f) ∧
        v.entries = ((c.removeBelow src).2).move src f e ∧ Landed v.store src f e⌝,
      fun _ _ => ⌜True⌝⟩⦄ := by
  have hpf := resolveParentFolder_keeps (resolve_keeps upClosed_lookSteps)
  have hst := fun se' d parent t => guarded_landed (Store.moveFolder_spec se' parent src t)
    (fun _ _ _ h => h.2.2) [src, d]
  unfold relocate modifyEntries modifyContent
  mvcgen [hpf, hst, -resolveParentFolder_spec, -onStore_spec]
  case vc3 =>
    -- moved into the target: the folder lands under its own name
    have hl := ‹Landed _ src _ _›
    have hn := ‹src.fileName? = some _›
    exact ⟨_, _, _, Or.inr ⟨‹into = true›, by rw [hn]; rfl⟩, rfl, hl⟩
  case vc7 =>
    have hl := ‹Landed _ src _ _›
    exact ⟨_, _, _, Or.inl rfl, rfl, hl⟩

end Volume

namespace Mount

open Volume

/-- Every hook keeps the store up-closed. -/
theorem Hook.upClosed (k : Hook) {s : Store} (hu : s.UpClosed) : (k.apply s).UpClosed := by
  cases k with
  | write p data => exact end_of_triple (Store.externalWrite_upClosed p data) hu
  | mkdir p => exact end_of_triple (Store.externalMkdir_upClosed p) hu
  | remove p => exact hu.detach p
  | reportName p name => exact hu.of_nodes rfl
  | lookupMiss p miss =>
    have hnodes : (s.setLookupMiss p miss).nodes = s.nodes := by
      unfold Store.setLookupMiss
      split_ifs <;> rfl
    exact hu.of_nodes hnodes
  | truncate limit => exact hu.of_nodes rfl
  | asyncCopy on => exact hu.of_nodes rfl
  | resetCalls => exact hu.of_nodes rfl

/-- An outside change that is one of the store's hooks; every other action is allowed. -/
def ByHooks : Mount → Action → Prop
  | _, .external f => ∃ k : Hook, f = k.apply
  | _, _ => True

/-- Every action whose outside change is a hook keeps the store up-closed; commits do too,
also onto a folder with children. -/
theorem upClosed_act (m : Mount) (a : Action) (hm : m.volume.store.UpClosed)
    (ha : ByHooks m a) : (m.act a).volume.store.UpClosed := by
  have hS := Store.upClosed_callSteps.steps
  have hu : ∀ (v : Volume) (u : Uploads), v.store.UpClosed →
      { v with uploads := u }.store.UpClosed :=
    fun _ _ h => h
  cases a with
  | request r => exact keeps_request hS m hm r
  | openWrite p replace append => exact keeps_openWrite hu hS m hm p replace append
  | write n bytes => exact keeps_write hu m hm n bytes
  | commit n =>
    rw [act_commit]
    cases hh : m.handle? n with
    | none => exact hm
    | some h =>
      exact end_of_triple
        (Volume.commit_moves h (Store.commitUpload_upClosed h.path h.buffer)) hm
  | abandon n => exact keeps_abandon hu m hm n
  | external f =>
    obtain ⟨k, rfl⟩ := ha
    exact k.upClosed hm

/-- Every state a fresh mount reaches, with hooks as its outside changes, has well-formed
cached listings and an up-closed store. -/
theorem moveReady_along_hook_runs (o : Options) (acts : List Action)
    (h : Along ByHooks (Mount.create o) acts) :
    ((Mount.create o).replay acts).volume.entries.WellListed ∧
      ((Mount.create o).replay acts).volume.store.UpClosed :=
  ⟨keeps_replay (fun _ _ h => h) wellListed_frame _ EntryCache.wellListed_empty acts,
    replay_of_along upClosed_act Store.UpClosed.empty h⟩

end Mount

namespace Volume

/-- Over well-formed listings and an up-closed store, a folder move by rename or `relocate` caches
the final path with the store's entry and leaves the cache as `FolderMoved` says. -/
theorem folder_move_clears_source {v : Volume} (hl : v.entries.WellListed)
    (hu : v.store.UpClosed) (src target : Path) :
    (∀ se w e v', ((resolve src).run).run v = (.ok se, w) → se.isFolder = true →
        ((rename src target).run).run v = (.ok e, v') →
        v'.store.entryAt target = some e ∧ ∃ c, EntryCache.FolderMoved c v'.entries src target e) ∧
      ∀ se into v', se.isFolder = true → ((relocate src se target into).run).run v = (.ok (), v') →
        ∃ f e c, (f = target ∨ into = true ∧ src.fileName?.map target.join = some f) ∧
          v'.store.entryAt f = some e ∧ EntryCache.FolderMoved c v'.entries src f e := by
  have hS := Mount.wellListed_frame.steps
  refine ⟨fun se w e v' hres hf hok => ?_, fun se into v' hf hok => ?_⟩
  · obtain ⟨c, hc, hland⟩ := ok_of_triple (rename_folder_spec hu hres hf) hok
    have hw : v'.entries.WellListed := by
      have h := (rename_keeps hS src target).run hl
      rwa [hok] at h
    exact ⟨hland.entry, c, .of_update hc hw hland.outside hland.notHolder hland.hung⟩
  · have hpost := (triple_iff_run _ _ _ _).1 (@relocate_folder_spec src target se into hf) v hu
    rw [hok] at hpost
    obtain ⟨f, e, c, hfin, hc, hland⟩ := hpost
    have hw : v'.entries.WellListed := by
      have h := (relocate_keeps hS src se target into).run hl
      rwa [hok] at h
    exact ⟨f, e, c, hfin, hland.entry, .of_update hc hw hland.outside hland.notHolder hland.hung⟩

/-- A fresh volume has well-formed listings and an up-closed store, so its folder moves leave
the cache as `FolderMoved` says. -/
theorem folder_move_from_fresh_volume :
    (Volume.create {}).entries.WellListed ∧ (Volume.create {}).store.UpClosed ∧
      ((∀ se w e v', ((resolve (Path.root.join "a")).run).run (Volume.create {}) = (.ok se, w) →
        se.isFolder = true →
        ((rename (Path.root.join "a") (Path.root.join "b")).run).run (Volume.create {}) =
          (.ok e, v') →
        v'.store.entryAt (Path.root.join "b") = some e ∧
          ∃ c, EntryCache.FolderMoved c v'.entries (Path.root.join "a") (Path.root.join "b") e) ∧
      ∀ se into v', se.isFolder = true →
        ((relocate (Path.root.join "a") se (Path.root.join "b") into).run).run
          (Volume.create {}) = (.ok (), v') →
        ∃ f e c, (f = Path.root.join "b" ∨
            into = true ∧ (Path.root.join "a").fileName?.map (Path.root.join "b").join = some f) ∧
          v'.store.entryAt f = some e ∧
          EntryCache.FolderMoved c v'.entries (Path.root.join "a") f e) :=
  ⟨EntryCache.wellListed_empty, Store.UpClosed.empty,
    folder_move_clears_source EntryCache.wellListed_empty Store.UpClosed.empty _ _⟩

/-- A renamed folder's listing need not reach its new path: renaming `/q/s` to `/q/d/t` lists `/q`
again, which no longer shows `s`, so `/q/s` and its listing are forgotten before the store moves
it and `/q/d/t` ends with no cached listing. -/
theorem rename_after_relisting_loses_listing :
    let q := Path.root.join "q"
    let m := (Mount.create {}).replay [.request (.createDir (Path.root.join "p")),
      .request (.createDir ((Path.root.join "p").join "s")),
      .request (.createDir (((Path.root.join "p").join "s").join "x")),
      .request (.createDir ((Path.root.join "p").join "d")),
      .request (.rename (Path.root.join "p") q),
      .request (.resolve (q.join "s")),
      .request (.list (q.join "s") false),
      .external (Mount.Hook.reportName (q.join "s") "zz").apply,
      .external (Mount.Hook.lookupMiss (q.join "d") true).apply]
    m.volume.entries.listing? (q.join "s") = some [(q.join "s").join "x"] ∧
      (((resolve (q.join "s")).run).run m.volume).1.toOption.map Entry.isFolder = some true ∧
      (((rename (q.join "s") ((q.join "d").join "t")).run).run m.volume).1.toBool = true ∧
      (((rename (q.join "s") ((q.join "d").join "t")).run).run m.volume).2.entries.listing?
        ((q.join "d").join "t") = none := by
  cbv

/-- A move clears the entry cache, not the content cache, which is keyed by path. Here `/d/f` is
read once as `x`, then `/d` moves to `/e`, `/e/f` is overwritten with `y`, and `/e` moves back.
The store now holds `y` at `/d/f`, but the read finds the cached `x` under the same path with the
same size and answers it. -/
theorem folder_round_trip_serves_stale_blob :
    let m := (Mount.create {}).replay [.request (.createDir (Path.root.join "d")),
      .openWrite ((Path.root.join "d").join "f") false false, .write 0 [0x78], .commit 0,
      .request (.openRead ((Path.root.join "d").join "f")),
      .request (.rename (Path.root.join "d") (Path.root.join "e")),
      .openWrite ((Path.root.join "e").join "f") true false, .write 1 [0x79], .commit 1,
      .request (.rename (Path.root.join "e") (Path.root.join "d"))]
    m.volume.store.readFile? ((Path.root.join "d").join "f") = some [0x79] ∧
      (m.run (openRead ((Path.root.join "d").join "f"))).1 = .ok [0x78] := by
  intro m
  simp only [m]
  cbv

end Volume

end FrontCache
