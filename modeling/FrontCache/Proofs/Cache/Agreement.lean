import Mathlib.Data.List.Nodup
import FrontCache.Volume.Resolve
import FrontCache.Proofs.Store.Tree
/-!
# The entry cache agrees with the store

`EntryCache.Agrees c s`: every cached entry is the entry of the node at its path, and every
cached listing of a folder `d` names, once each, nodes whose parent is `d`. A listing may
miss children; it never names one that is gone.

Main statements: each operation of the cache keeps agreement when what it stores is true of
the store (`put` and `add` of a node's entry, `recordListing` of a fresh listing), and the
operations that forget keep it always. Then, for each change of the store that a volume
makes, the cache update that follows it restores agreement: `add` after `insert`, `remove`
after `detach` of a node with nothing below it, `add` after `overwrite`, and for a move the
rewrite of the source's listing that `move` does after `removeBelow`, which matches how
`relocate` reroots the subtree.
-/
namespace FrontCache

namespace Store

/-! ### What the store tells about a path after each tree operation -/

/-- What the store tells about the node at a path, if there is one. -/
def entryAt (s : Store) (q : Path) : Option Entry := (s.node? q).map (·.entry q)

/-- A fresh folder entry is the entry of a folder node with the same id. -/
theorem folder_of_entryAt {s : Store} {p : Path} {e : Entry} (h : s.entryAt p = some e)
    (hf : e.isFolder = true) : ∃ cs, s.node? p = some ⟨e.id, .folder cs⟩ := by
  obtain ⟨⟨id, b⟩, hn, rfl⟩ := Option.map_eq_some_iff.1 h
  cases b with
  | folder cs => exact ⟨cs, hn⟩
  | file data => simp [Node.entry] at hf

/-- A fresh file entry is the entry of a file node with the same id, and its size is the
number of bytes the file holds. -/
theorem file_of_entryAt {s : Store} {p : Path} {e : Entry} (h : s.entryAt p = some e)
    (hf : e.isFolder = false) :
    ∃ data, s.node? p = some ⟨e.id, .file data⟩ ∧ e.size = data.length := by
  obtain ⟨⟨id, b⟩, hn, rfl⟩ := Option.map_eq_some_iff.1 h
  cases b with
  | folder cs => simp [Node.entry] at hf
  | file data => exact ⟨data, hn, rfl⟩

/-- A node's entry reads only the last component of its path. -/
theorem entry_of_fileName? (n : Node) {p q : Path} (h : p.fileName? = q.fileName?) :
    n.entry p = n.entry q := by
  unfold Node.entry
  rw [h]

/-- A parent's list of names is not part of its entry. -/
theorem entryAt_unlink (s : Store) (p q : Path) : (s.unlink p).entryAt q = s.entryAt q := by
  by_cases hpq : p.parent? = some q
  · obtain ⟨pname, hps⟩ := Path.split?_of_parent? hpq
    unfold entryAt
    cases hq : s.node? q with
    | none => rw [node?_unlink_parent_of_file hps (by simp [hq]), hq]
    | some n =>
      obtain ⟨id, b⟩ := n
      cases b with
      | folder cs => rw [node?_unlink_parent hps hq]; rfl
      | file data => rw [node?_unlink_parent_of_file hps (by simp [hq]), hq]
  · simp only [entryAt, node?_unlink_of_ne hpq]

theorem entryAt_link {s s1 : Store} {p : Path} (h : s.link p = .ok s1) (q : Path) :
    s1.entryAt q = s.entryAt q := by
  obtain ⟨d, name, id, cs, -, hd, rfl⟩ := link_eq_ok h
  by_cases hqd : q = d
  · subst hqd
    simp only [entryAt, node?_with_insert, hd]
    rfl
  · simp only [entryAt, node?_with_insert, if_neg hqd]

theorem entryAt_insert {s s' : Store} {p : Path} {b : Body} {e : Entry}
    (h : s.insert p b = .ok (e, s')) (q : Path) :
    s'.entryAt q = if q = p then some e else s.entryAt q := by
  obtain ⟨-, s1, hl, rfl, rfl⟩ := insert_eq_ok h
  by_cases hqp : q = p
  · subst hqp
    simp [entryAt, node?, Table.get?_insert]
  · rw [if_neg hqp, ← entryAt_link hl q]
    simp [entryAt, node?, Table.get?_insert, hqp]

theorem entryAt_detach (s : Store) (p q : Path) :
    (s.detach p).2.entryAt q = if within q p then none else s.entryAt q := by
  unfold entryAt
  rw [node?_detach]
  split
  · rfl
  · exact entryAt_unlink s p q

theorem entryAt_overwrite (s : Store) (p : Path) (n : Node) (b : Body) (q : Path) :
    (s.overwrite p n b).2.entryAt q = if q = p then some (s.overwrite p n b).1 else s.entryAt q := by
  by_cases hqp : q = p
  · subst hqp
    simp [entryAt, overwrite]
  · simp [entryAt, node?_overwrite, hqp]

/-- After a move in a tree, the target tells the moved entry, a path below it what the
matching path below the source told, and nothing is left within the source. -/
theorem entryAt_relocate {s s' : Store} (ht : s.Tree) {src dst : Path} {e : Entry}
    (h : s.relocate src dst = .ok (e, s')) (q : Path) :
    s'.entryAt q =
      if q = dst then some e
      else if within q dst then s.entryAt (q.reroot dst src)
      else if within q src then none else s.entryAt q := by
  obtain ⟨-, -, -, -, s1, hl, hq⟩ := ht.node?_relocate h
  obtain ⟨-, -, -, -, -, ⟨n, hn, rfl⟩, -⟩ := relocate_eq_ok h
  by_cases hqd : q = dst
  · subst hqd
    simp [entryAt, hn]
  rw [if_neg hqd]
  unfold entryAt
  rw [hq q]
  by_cases hw : within q dst = true
  · rw [if_pos hw, if_pos hw]
    have hb : q.isBelow dst = true := (within_cases hw).resolve_left hqd
    congr 1
    funext m
    exact entry_of_fileName? m (Path.fileName?_reroot src hb).symm
  · rw [if_neg hw, if_neg hw]
    split
    · rfl
    · exact (entryAt_unlink s1 src q).trans (entryAt_link hl q)

end Store

namespace EntryCache

variable {α : Type}

/-! ### The two views after each operation -/

@[simp] theorem entries_get (c : EntryCache α) (p : Path) : (c.get p).2.entries = c.entries := by
  unfold get
  split <;> rfl

@[simp] theorem listings_get (c : EntryCache α) (p : Path) : (c.get p).2.listings = c.listings := by
  unfold get
  split <;> rfl

theorem get_fst (c : EntryCache α) (p : Path) : (c.get p).1 = c.entries.get? p := by
  unfold get
  split <;> simp_all

@[simp] theorem get?_put (c : EntryCache α) (p q : Path) (e : α) :
    (c.put p e).entries.get? q = if q = p then some e else c.entries.get? q := by
  simp [put]

@[simp] theorem listings_put (c : EntryCache α) (p : Path) (e : α) :
    (c.put p e).listings = c.listings := rfl

@[simp] theorem get?_evict (c : EntryCache α) (p q : Path) :
    (c.evict p).2.entries.get? q = if q = p then none else c.entries.get? q := by
  unfold evict
  split
  · simp
  · rename_i h
    by_cases hq : q = p
    · subst hq
      simp [h]
    · simp [hq]

@[simp] theorem listings_evict (c : EntryCache α) (p : Path) :
    (c.evict p).2.listings = c.listings := by
  unfold evict
  split <;> rfl

@[simp] theorem entries_putListing (c : EntryCache α) (d : Path) (l : List Path) :
    (c.putListing d l).entries = c.entries := rfl

@[simp] theorem listing?_put (c : EntryCache α) (p d : Path) (e : α) :
    (c.put p e).listing? d = c.listing? d := rfl

@[simp] theorem listing?_evict (c : EntryCache α) (p d : Path) :
    (c.evict p).2.listing? d = c.listing? d := by
  simp [listing?]

@[simp] theorem listing?_putListing (c : EntryCache α) (d d' : Path) (l : List Path) :
    (c.putListing d l).listing? d' = if d' = d then some l else c.listing? d' := by
  simp [putListing, listing?]

/-- `add` changes the entries at its path only. -/
theorem add_entries (c : EntryCache α) (p : Path) (e : α) :
    (c.add p e).entries = c.entries.insert p e := by
  dsimp only [add]
  split
  · split <;> rfl
  · rfl

@[simp] theorem get?_add (c : EntryCache α) (p q : Path) (e : α) :
    (c.add p e).entries.get? q = if q = p then some e else c.entries.get? q := by
  rw [add_entries, Table.get?_insert]

/-- `add` appends the path to its parent's listing, starting one, unless it is there. -/
theorem listing?_add (c : EntryCache α) (p d : Path) (e : α) :
    (c.add p e).listing? d =
      if p.parent? = some d ∧ ((c.listing? d).getD []).contains p = false then
        some ((c.listing? d).getD [] ++ [p])
      else c.listing? d := by
  dsimp only [add]
  cases hp : p.parent? with
  | none => simp
  | some d' =>
    dsimp only
    by_cases hc : ((c.listing? d').getD []).contains p = true
    · rw [if_pos hc, listing?_put]
      by_cases hdd : d' = d
      · subst hdd
        have hm : p ∈ (c.listing? d').getD [] := by simpa using hc
        simp [hm]
      · simp [hdd]
    · rw [if_neg hc, listing?_put, listing?_putListing]
      by_cases hdd : d' = d
      · subst hdd
        simp_all
      · simp [hdd, Ne.symm hdd]

/-- `remove` changes the entries at its path only. -/
theorem remove_entries_get? (c : EntryCache α) (p q : Path) :
    (c.remove p).entries.get? q = (c.evict p).2.entries.get? q := by
  dsimp only [remove]
  split
  · split <;> rfl
  · rfl

@[simp] theorem get?_remove (c : EntryCache α) (p q : Path) :
    (c.remove p).entries.get? q = if q = p then none else c.entries.get? q := by
  rw [remove_entries_get?, get?_evict]

/-- `remove` drops the path's own listing and takes the path out of its parent's. -/
theorem listing?_remove (c : EntryCache α) (p d : Path) :
    (c.remove p).listing? d =
      if d = p then none
      else if p.parent? = some d then (c.listing? d).map (·.filter (· != p))
      else c.listing? d := by
  dsimp only [remove]
  by_cases hdp : d = p
  · subst hdp
    simp [listing?]
  · have herase : ∀ c' : EntryCache α,
        ({ c' with listings := c'.listings.erase p } : EntryCache α).listing? d = c'.listing? d := by
      intro c'
      simp [listing?, hdp]
    rw [herase, if_neg hdp]
    cases hp : p.parent? with
    | none => simp
    | some d' =>
      dsimp only
      cases hl : c.listing? d' with
      | none =>
        rw [listing?_evict, hl]
        by_cases hdd : d' = d
        · subst hdd
          simp [hl]
        · simp [hdd]
      | some l =>
        rw [listing?_evict, hl, listing?_putListing, listing?_evict]
        by_cases hdd : d' = d
        · subst hdd
          simp [hl]
        · simp [hdd, Ne.symm hdd]

/-- What is strictly below `a` goes, entries and listings. -/
@[simp] theorem get?_removeBelow (c : EntryCache α) (a q : Path) :
    (c.removeBelow a).2.entries.get? q = if q.isBelow a then none else c.entries.get? q := by
  simp only [removeBelow, Table.get?_retain, Bool.not_eq_true']
  by_cases h : q.isBelow a <;> simp [h]

/-- `move` caches the target's entry and forgets the source's. -/
@[simp] theorem get?_move (c : EntryCache α) (s t q : Path) (e : α) :
    (c.move s t e).entries.get? q =
      if q = t then some e else if q = s then none else c.entries.get? q := by
  unfold move
  dsimp only
  split <;> simp [get?_add, get?_remove]

@[simp] theorem listing?_removeBelow (c : EntryCache α) (a d : Path) :
    (c.removeBelow a).2.listing? d = if d.isBelow a then none else c.listing? d := by
  simp only [removeBelow, listing?, Table.get?_retain, Bool.not_eq_true']
  by_cases h : d.isBelow a <;> simp [h]

theorem listing?_get (c : EntryCache α) (p d : Path) : (c.get p).2.listing? d = c.listing? d := by
  simp [listing?]

/-- The cache says something about `q`: an entry, or a place in a listing. -/
def Mentions (c : EntryCache α) (q : Path) : Prop :=
  (c.entries.get? q).isSome ∨ ∃ d l, c.listing? d = some l ∧ q ∈ l

/-! ### Agreement with the store -/

/-- The entry cache agrees with the store: a cached entry is what the store tells about its
path, and a cached listing of `d` names, once each, paths of nodes whose parent is `d`. -/
structure Agrees (c : EntryCache Entry) (s : Store) : Prop where
  entry : ∀ q e, c.entries.get? q = some e → s.entryAt q = some e
  listing : ∀ d l, c.listing? d = some l →
    l.Nodup ∧ ∀ q ∈ l, q.parent? = some d ∧ (s.entryAt q).isSome

namespace Agrees

variable {c : EntryCache Entry} {s s' : Store}

/-- What the cache mentions is in the store. -/
theorem isSome_of_mentions (ha : c.Agrees s) {q : Path} (h : c.Mentions q) :
    (s.entryAt q).isSome := by
  rcases h with h | ⟨d, l, hl, hq⟩
  · obtain ⟨e, he⟩ := Option.isSome_iff_exists.1 h
    rw [ha.entry q e he]
    rfl
  · exact ((ha.listing d l hl).2 q hq).2

/-- A change of the store that keeps what it tells about every path the cache mentions keeps
agreement. -/
theorem transport (ha : c.Agrees s) (h : ∀ q, c.Mentions q → s'.entryAt q = s.entryAt q) :
    c.Agrees s' where
  entry q e he := by
    rw [h q (Or.inl (by simp [he]))]
    exact ha.entry q e he
  listing d l hl := by
    obtain ⟨hn, hq⟩ := ha.listing d l hl
    refine ⟨hn, fun q hm => ?_⟩
    rw [h q (Or.inr ⟨d, l, hl, hm⟩)]
    exact hq q hm

/-- What `c.remove p` mentions, `c` mentions, and it is not `p`. -/
theorem mentions_remove (ha : c.Agrees s) {p q : Path} (h : (c.remove p).Mentions q) :
    q ≠ p ∧ c.Mentions q := by
  rcases h with h | ⟨d, l, hl, hq⟩
  · rw [get?_remove] at h
    split at h
    · cases h
    · rename_i hqp
      exact ⟨hqp, Or.inl h⟩
  · rw [listing?_remove] at hl
    split at hl
    · cases hl
    · split at hl
      · obtain ⟨l0, hl0, rfl⟩ := Option.map_eq_some_iff.1 hl
        have hm := List.mem_filter.1 hq
        exact ⟨by simpa using hm.2, Or.inr ⟨d, l0, hl0, hm.1⟩⟩
      · rename_i hpd
        refine ⟨?_, Or.inr ⟨d, l, hl, hq⟩⟩
        rintro rfl
        exact hpd ((ha.listing d l hl).2 q hq).1

/-- Agreement reads the nodes of the store alone. -/
theorem of_nodes (ha : c.Agrees s) (h : s'.nodes = s.nodes) : c.Agrees s' :=
  ha.transport fun q _ => by simp only [Store.entryAt, Store.node?, h]

theorem get (ha : c.Agrees s) (p : Path) : (c.get p).2.Agrees s where
  entry q e he := ha.entry q e (by simpa using he)
  listing d l hl := ha.listing d l (by rwa [listing?_get] at hl)

theorem put (ha : c.Agrees s) {p : Path} {e : Entry} (he : s.entryAt p = some e) :
    (c.put p e).Agrees s where
  entry q e' h := by
    rw [get?_put] at h
    split at h
    · rename_i hqp
      subst hqp
      cases h
      exact he
    · exact ha.entry q e' h
  listing d l hl := ha.listing d l (by rwa [listing?_put] at hl)

theorem evict (ha : c.Agrees s) (p : Path) : (c.evict p).2.Agrees s where
  entry q e h := by
    rw [get?_evict] at h
    split at h
    · cases h
    · exact ha.entry q e h
  listing d l hl := ha.listing d l (by rwa [listing?_evict] at hl)

theorem putListing (ha : c.Agrees s) {d : Path} {l : List Path} (hn : l.Nodup)
    (hl : ∀ q ∈ l, q.parent? = some d ∧ (s.entryAt q).isSome) : (c.putListing d l).Agrees s where
  entry q e h := ha.entry q e (by simpa using h)
  listing d' l' h := by
    rw [listing?_putListing] at h
    split at h
    · rename_i hd
      subst hd
      cases h
      exact ⟨hn, hl⟩
    · exact ha.listing d' l' h

theorem remove (ha : c.Agrees s) (p : Path) : (c.remove p).Agrees s where
  entry q e h := by
    rw [get?_remove] at h
    split at h
    · cases h
    · exact ha.entry q e h
  listing d l hl := by
    rw [listing?_remove] at hl
    split at hl
    · cases hl
    · split at hl
      · obtain ⟨l0, hl0, rfl⟩ := Option.map_eq_some_iff.1 hl
        obtain ⟨hn, hq⟩ := ha.listing d l0 hl0
        exact ⟨hn.filter _, fun q hm => hq q (List.mem_filter.1 hm).1⟩
      · exact ha.listing d l hl

theorem foldl_remove (ha : c.Agrees s) (l : List Path) : (l.foldl EntryCache.remove c).Agrees s := by
  induction l generalizing c with
  | nil => exact ha
  | cons q rest ih => exact ih (ha.remove q)

theorem removeBelow (ha : c.Agrees s) (a : Path) : (c.removeBelow a).2.Agrees s where
  entry q e h := by
    rw [get?_removeBelow] at h
    split at h
    · cases h
    · exact ha.entry q e h
  listing d l hl := by
    rw [listing?_removeBelow] at hl
    split at hl
    · cases hl
    · exact ha.listing d l hl

theorem eraseListing (ha : c.Agrees s) (d : Path) :
    ({ c with listings := c.listings.erase d } : EntryCache Entry).Agrees s where
  entry := ha.entry
  listing d' l h := by
    have h' : c.listing? d' = some l := by
      by_cases hd : d' = d
      · subst hd
        simp [listing?] at h
      · simpa [listing?, hd] using h
    exact ha.listing d' l h'

/-- The store changed at `p` and nowhere else that the cache mentions, and `p` is forgotten. -/
theorem remove_of (ha : c.Agrees s) {p : Path}
    (h : ∀ q, q ≠ p → c.Mentions q → s'.entryAt q = s.entryAt q) : (c.remove p).Agrees s' :=
  (ha.remove p).transport fun q hq =>
    let ⟨hne, hm⟩ := ha.mentions_remove hq
    h q hne hm

/-- The store changed at `p` and nowhere else that the cache mentions, and what it now tells
about `p` is cached. -/
theorem add_of (ha : c.Agrees s) {p : Path} {e : Entry}
    (h : ∀ q, q ≠ p → c.Mentions q → s'.entryAt q = s.entryAt q) (he : s'.entryAt p = some e) :
    (c.add p e).Agrees s' := by
  have hmem : ∀ d l q, c.listing? d = some l → q ∈ l →
      q.parent? = some d ∧ (s'.entryAt q).isSome := by
    intro d l q hl hq
    refine ⟨((ha.listing d l hl).2 q hq).1, ?_⟩
    by_cases hqp : q = p
    · subst hqp
      rw [he]
      rfl
    · rw [h q hqp (Or.inr ⟨d, l, hl, hq⟩)]
      exact ((ha.listing d l hl).2 q hq).2
  refine ⟨fun q e' h' => ?_, fun d l hl => ?_⟩
  · rw [get?_add] at h'
    split at h'
    · rename_i hqp
      subst hqp
      cases h'
      exact he
    · rename_i hqp
      rw [h q hqp (Or.inl (by simp [h']))]
      exact ha.entry q e' h'
  · rw [listing?_add] at hl
    split at hl
    · rename_i hc
      cases hl
      have hnodup : ((c.listing? d).getD []).Nodup := by
        cases hd : c.listing? d with
        | none => exact List.nodup_nil
        | some l0 => exact (ha.listing d l0 hd).1
      refine ⟨?_, fun q hq => ?_⟩
      · rw [List.nodup_append]
        refine ⟨hnodup, by simp, fun a ha b hb => ?_⟩
        rw [List.mem_singleton] at hb
        subst hb
        rintro rfl
        simp [ha] at hc
      · rcases List.mem_append.1 hq with hq | hq
        · cases hd : c.listing? d with
          | none => rw [hd] at hq; cases hq
          | some l0 => rw [hd] at hq; exact hmem d l0 q hd hq
        · rw [List.mem_singleton.1 hq, he]
          exact ⟨hc.1, rfl⟩
    · exact ⟨(ha.listing d l hl).1, fun q hq => hmem d l q hl hq⟩

theorem add (ha : c.Agrees s) {p : Path} {e : Entry} (he : s.entryAt p = some e) :
    (c.add p e).Agrees s :=
  ha.add_of (fun _ _ _ => rfl) he

/-! ### The cache update after each change of the store -/

theorem node?_ne_none (ha : c.Agrees s) {q : Path} (hm : c.Mentions q) : s.node? q ≠ none := by
  have h := ha.isSome_of_mentions hm
  unfold Store.entryAt at h
  rw [Option.isSome_map] at h
  exact Option.isSome_iff_ne_none.1 h

/-- In a tree, the cache mentions nothing below a path that has nothing below it. -/
theorem not_isBelow (ha : c.Agrees s) (ht : s.Tree) {p q : Path} (hp : ¬ s.Populated p)
    (hm : c.Mentions q) : ¬ q.isBelow p = true :=
  fun hb => ha.node?_ne_none hm (ht.node?_eq_none_of_isBelow hp hb)

/-- A node made at a free path, and cached. -/
theorem insert (ha : c.Agrees s) {p : Path} {b : Body} {e : Entry}
    (h : s.insert p b = .ok (e, s')) : (c.add p e).Agrees s' :=
  ha.add_of (fun q hq _ => by rw [Store.entryAt_insert h, if_neg hq])
    (by rw [Store.entryAt_insert h, if_pos rfl])

/-- A node given a new body, and its new entry cached. -/
theorem overwrite (ha : c.Agrees s) (p : Path) (n : Node) (b : Body) :
    (c.add p (s.overwrite p n b).1).Agrees (s.overwrite p n b).2 :=
  ha.add_of (fun q hq _ => by rw [Store.entryAt_overwrite, if_neg hq])
    (by rw [Store.entryAt_overwrite, if_pos rfl])

/-- What the cache mentions, other than `p`, is not within `p` when nothing is below `p`. -/
theorem not_within (ha : c.Agrees s) (ht : s.Tree) {p q : Path} (hp : ¬ s.Populated p)
    (hq : q ≠ p) (hm : c.Mentions q) : ¬ Store.within q p = true := by
  intro hw
  rcases Store.within_cases hw with rfl | hb
  · exact hq rfl
  · exact ha.not_isBelow ht hp hm hb

/-- A path with nothing below it taken out, and forgotten. -/
theorem detach (ha : c.Agrees s) (ht : s.Tree) {p : Path} (hp : ¬ s.Populated p) :
    (c.remove p).Agrees (s.detach p).2 :=
  ha.remove_of fun q hq hm => by rw [Store.entryAt_detach, if_neg (ha.not_within ht hp hq hm)]

/-- What stood at a path with nothing below it replaced by a new node, which is cached. -/
theorem replace (ha : c.Agrees s) (ht : s.Tree) {p : Path} {b : Body} {e : Entry}
    (hp : ¬ s.Populated p) (h : (s.detach p).2.insert p b = .ok (e, s')) :
    (c.add p e).Agrees s' :=
  ha.add_of
    (fun q hq hm => by
      rw [Store.entryAt_insert h, if_neg hq, Store.entryAt_detach, if_neg (ha.not_within ht hp hq hm)])
    (by rw [Store.entryAt_insert h, if_pos rfl])

/-- A file moved in a tree: the source forgotten, the target cached. -/
theorem relocate_file (ha : c.Agrees s) (ht : s.Tree) {src dst : Path} {e : Entry}
    (hsrc : ¬ s.Populated src) (h : s.relocate src dst = .ok (e, s')) :
    ((c.remove src).add dst e).Agrees s' := by
  have hfree := (Store.relocate_eq_ok h).1
  have hr : (c.remove src).Agrees s' := ha.remove_of fun q hq hm => by
    have hqd : ¬ Store.within q dst = true := fun hw =>
      ha.node?_ne_none hm (ht.node?_eq_none_of_within hfree hw)
    have hqd' : q ≠ dst := fun he => hqd (he ▸ Store.within_refl dst)
    rw [Store.entryAt_relocate ht h, if_neg hqd', if_neg hqd, if_neg (ha.not_within ht hsrc hq hm)]
  exact hr.add (by rw [Store.entryAt_relocate ht h, if_pos rfl])

/-- A child of the source, moved along, is a child of the target standing where the store
put it. -/
theorem moved_child (ht : s.Tree) {src dst q : Path} {e : Entry}
    (h : s.relocate src dst = .ok (e, s')) (hq : q.parent? = some src)
    (he : (s.entryAt q).isSome) :
    (q.reroot src dst).parent? = some dst ∧ (s'.entryAt (q.reroot src dst)).isSome := by
  obtain ⟨n, hn⟩ := Path.split?_of_parent? hq
  have hw : Store.within q src = true := Store.within_of_isBelow (Store.isBelow_of_split? hn)
  have hs := Store.split?_reroot hn (Store.within_refl src) dst
  rw [Path.reroot_self] at hs
  refine ⟨Path.parent?_eq_some_iff.2 ⟨n, Path.split?_eq_some_iff.1 hs⟩, ?_⟩
  rw [Store.entryAt_relocate ht h, if_neg (Store.ne_of_split? hs),
    if_pos (Store.within_reroot dst hw), Store.reroot_reroot dst hw]
  exact he

/-- A folder moved in a tree: what was cached below the source is forgotten first, and the
move carries the source's entry and listing over to the target. -/
theorem relocate_folder (ha : c.Agrees s) (ht : s.Tree) {src dst : Path} {e : Entry}
    (h : s.relocate src dst = .ok (e, s')) : (((c.removeBelow src).2).move src dst e).Agrees s' := by
  have hfree := (Store.relocate_eq_ok h).1
  have h0 : (c.removeBelow src).2.Agrees s := ha.removeBelow src
  let c1 : EntryCache Entry :=
    { (c.removeBelow src).2 with listings := (c.removeBelow src).2.listings.erase src }
  have h1 : c1.Agrees s := h0.eraseListing src
  have hout : ∀ q, c1.Mentions q → q ≠ src → ¬ Store.within q src = true := by
    intro q hm hq hw
    have hb := (Store.within_cases hw).resolve_left hq
    rcases hm with hm | ⟨d, l, hl, hql⟩
    · have hm' : ((c.removeBelow src).2.entries.get? q).isSome := hm
      rw [get?_removeBelow, if_pos hb] at hm'
      cases hm'
    · have hds : d ≠ src := by
        rintro rfl
        simp [c1, listing?] at hl
      have hl0 : (c.removeBelow src).2.listing? d = some l := by
        simpa [c1, listing?, hds] using hl
      obtain ⟨n, hn⟩ := Path.split?_of_parent? ((h0.listing d l hl0).2 q hql).1
      rw [listing?_removeBelow] at hl0
      rcases Store.parent_eq_or_isBelow hb hn with rfl | hdb
      · exact hds rfl
      · rw [if_pos hdb] at hl0
        cases hl0
  have h2 : ((c1.remove src).add dst e).Agrees s' := by
    refine (h1.remove_of fun q hq hm => ?_).add (by rw [Store.entryAt_relocate ht h, if_pos rfl])
    have hqd : ¬ Store.within q dst = true := fun hw =>
      h1.node?_ne_none hm (ht.node?_eq_none_of_within hfree hw)
    have hqd' : q ≠ dst := fun he => hqd (he ▸ Store.within_refl dst)
    rw [Store.entryAt_relocate ht h, if_neg hqd', if_neg hqd, if_neg (hout q hm hq)]
  unfold EntryCache.move
  dsimp only
  split
  · rename_i l hl
    obtain ⟨hn, hq⟩ := h0.listing src l hl
    have hmap : l.filterMap (fun q => q.fileName?.map dst.join) = l.map (·.reroot src dst) :=
      List.filterMap_eq_map_iff_forall_eq_some.2 fun q hm =>
        Path.join_fileName?_of_parent? (hq q hm).1 dst
    have hwithin : ∀ q ∈ l, Store.within q src = true := by
      intro q hm
      obtain ⟨_, hn⟩ := Path.split?_of_parent? (hq q hm).1
      exact Store.within_of_isBelow (Store.isBelow_of_split? hn)
    rw [hmap]
    refine h2.putListing (hn.map_on fun a ha b hb hab =>
      Store.reroot_injective dst (hwithin a ha) (hwithin b hb) hab) ?_
    intro r hr
    obtain ⟨q, hm, rfl⟩ := List.mem_map.1 hr
    exact moved_child ht h (hq q hm).1 (hq q hm).2
  · exact h2

/-- Caching a fresh listing: each kept child's entry is what the store tells, each kept path
is a child of the folder, and no path is kept twice. -/
theorem recordListing (ha : c.Agrees s) {dir : Path} {kept : List (Path × Entry)}
    (hk : ∀ pe ∈ kept, pe.1.parent? = some dir ∧ s.entryAt pe.1 = some pe.2)
    (hn : (kept.map Prod.fst).Nodup) : (Volume.recordListing dir kept c).Agrees s := by
  have hput : ∀ (l : List (Path × Entry)) (c : EntryCache Entry), c.Agrees s →
      (∀ pe ∈ l, s.entryAt pe.1 = some pe.2) → (l.foldl (fun c pe => c.put pe.1 pe.2) c).Agrees s := by
    intro l
    induction l with
    | nil => exact fun c hc _ => hc
    | cons pe rest ih =>
      intro c hc hl
      exact ih _ (hc.put (hl pe (List.mem_cons_self ..))) fun x hx => hl x (List.mem_cons_of_mem _ hx)
  unfold Volume.recordListing
  dsimp only
  refine ((hput kept c ha fun pe hpe => (hk pe hpe).2).foldl_remove _).putListing hn ?_
  intro q hq
  obtain ⟨pe, hpe, rfl⟩ := List.mem_map.1 hq
  refine ⟨(hk pe hpe).1, ?_⟩
  rw [(hk pe hpe).2]
  rfl

end Agrees

/-- A fresh listing caches entries of kept paths only. -/
theorem get?_recordListing {c : EntryCache Entry} {dir : Path} {kept : List (Path × Entry)}
    {q : Path} {e : Entry} (h : (Volume.recordListing dir kept c).entries.get? q = some e) :
    c.entries.get? q = some e ∨ ∃ pe ∈ kept, pe.1 = q := by
  have hput : ∀ (l : List (Path × Entry)) (c : EntryCache Entry),
      (l.foldl (fun c pe => c.put pe.1 pe.2) c).entries.get? q = some e →
        c.entries.get? q = some e ∨ ∃ pe ∈ l, pe.1 = q := by
    intro l
    induction l with
    | nil => exact fun c h => Or.inl h
    | cons pe rest ih =>
      intro c h
      rcases ih _ h with h | ⟨x, hx, rfl⟩
      · rw [get?_put] at h
        split at h
        · exact Or.inr ⟨pe, List.mem_cons_self .., by simp_all⟩
        · exact Or.inl h
      · exact Or.inr ⟨x, List.mem_cons_of_mem _ hx, rfl⟩
  have hgone : ∀ (l : List Path) (c : EntryCache Entry),
      (l.foldl EntryCache.remove c).entries.get? q = some e → c.entries.get? q = some e := by
    intro l
    induction l with
    | nil => exact fun c h => h
    | cons r rest ih =>
      intro c h
      have h' := ih _ h
      rw [get?_remove] at h'
      split at h'
      · cases h'
      · exact h'
  unfold Volume.recordListing at h
  dsimp only at h
  rw [entries_putListing] at h
  exact hput kept c (hgone _ _ h)

end EntryCache

namespace Volume

/-! ### Fresh listings -/

/-- A pass over a folder's children that at each child keeps what it has, or appends the
child at its path below the folder when its name is a component and that path is new. -/
theorem foldl_keeps_children (dir : Path)
    (step : List (Path × Entry) → Entry → List (Path × Entry))
    (hstep : ∀ acc child, step acc child = acc ∨ isComponentName child.name = true ∧
      dir.join child.name ∉ acc.map Prod.fst ∧ step acc child = acc ++ [(dir.join child.name, child)])
    (children : List Entry) (acc : List (Path × Entry)) :
    (∀ pe ∈ children.foldl step acc, pe ∈ acc ∨ ∃ child ∈ children,
        isComponentName child.name = true ∧ pe = (dir.join child.name, child)) ∧
      ((acc.map Prod.fst).Nodup → ((children.foldl step acc).map Prod.fst).Nodup) := by
  induction children generalizing acc with
  | nil => exact ⟨fun pe h => Or.inl h, id⟩
  | cons child rest ih =>
    obtain ⟨hmem, hnodup⟩ := ih (step acc child)
    refine ⟨fun pe hpe => ?_, fun hn => hnodup ?_⟩
    · rcases hmem pe hpe with h | ⟨c, hc, hcn, rfl⟩
      · rcases hstep acc child with hs | ⟨hcn, -, hs⟩
        · exact Or.inl (hs ▸ h)
        · rw [hs] at h
          rcases List.mem_append.1 h with h | h
          · exact Or.inl h
          · exact Or.inr ⟨child, List.mem_cons_self .., hcn, List.mem_singleton.1 h⟩
      · exact Or.inr ⟨c, List.mem_cons_of_mem _ hc, hcn, rfl⟩
    · rcases hstep acc child with hs | ⟨-, hfresh, hs⟩
      · rwa [hs]
      · rw [hs, List.map_append, List.nodup_append]
        refine ⟨hn, by simp, fun a ha b hb => ?_⟩
        simp only [List.map_cons, List.map_nil, List.mem_singleton] at hb
        subst hb
        rintro rfl
        exact hfresh ha

/-- A fresh listing keeps children whose names are components, each at its own path below the
folder, and no path twice. -/
theorem keptChildren_spec (ig : Bool) (dir : Path) (children : List Entry) :
    (∀ pe ∈ keptChildren ig dir children, ∃ child ∈ children,
        isComponentName child.name = true ∧ pe = (dir.join child.name, child)) ∧
      ((keptChildren ig dir children).map Prod.fst).Nodup := by
  unfold keptChildren
  have hstep := foldl_keeps_children dir (fun acc child =>
      if !isComponentName child.name then acc
      else if ig && (dir.join child.name).isSidecar then acc
      else if acc.any (·.1 == dir.join child.name) then acc
      else acc ++ [(dir.join child.name, child)]) (by
    intro acc child
    by_cases hc : isComponentName child.name = true
    · by_cases hs : (ig && (dir.join child.name).isSidecar) = true
      · simp [hc, hs]
      · by_cases ha : (acc.any (·.1 == dir.join child.name)) = true
        · simp [hc, hs, ha]
        · refine Or.inr ⟨hc, ?_, by simp [hc, hs, ha]⟩
          simp only [List.any_eq_true, beq_iff_eq, not_exists, not_and] at ha
          intro hmem
          obtain ⟨⟨a, b⟩, hab, heq⟩ := List.mem_map.1 hmem
          exact ha (a, b) hab heq
    · simp [hc]) children []
  exact ⟨fun pe h => (hstep.1 pe h).resolve_left (List.not_mem_nil), hstep.2 List.nodup_nil⟩

end Volume

end FrontCache
