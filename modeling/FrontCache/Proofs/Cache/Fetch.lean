import FrontCache.Proofs.Cache.Blobs
/-!
# Reads through the content cache

A read goes one of four ways. A cache without a blob store passes it through to the source.
A blob of the expected length is served and the source is left unread, counting a hit.
Otherwise a blob of another length is dropped (an eviction), a miss is counted, the source is
read once and its answer returned, and the bytes are kept exactly when there are as many as
expected (an insert), else refused (a rejection). No blob but the read path's changes.

Main statements: `fetch_contract` describes the next read after any run of reads,
invalidations and disposals (`ContentCache.Op`) from a new cache, enabled or not. Such a cache
has no store exactly when it started without one or was disposed (`blobs_replay_eq_none`), and
every blob it holds is the download of a read of its path that expected its length
(`Stored.replay`).
-/
namespace FrontCache

namespace ContentCache

variable {c : ContentCache} {p q : Path} {n : Nat}

/-! ### The four ways of a read -/

theorem blob?_of_blobs_none (h : c.blobs = none) (q : Path) : c.blob? q = none := by
  simp [blob?, h]

theorem blobs_isSome_of_blob? {b : List UInt8} (h : c.blob? p = some b) : c.blobs.isSome := by
  cases hb : c.blobs with
  | none => simp [blob?, hb] at h
  | some t => rfl

/-- Dropping a blob counts an eviction when there was one. -/
theorem discard_counters (c : ContentCache) (p : Path) :
    (c.discard p).counters = if (c.blob? p).isSome then c.counters.eviction else c.counters := by
  unfold discard invalidate blob?
  cases hb : c.blobs with
  | none => simp
  | some t =>
    cases hg : t.get? p with
    | none => simp [Table.contains, hg]
    | some b => simp [Table.contains, hg]

theorem discard_blobs_eq_none (c : ContentCache) (p : Path) :
    (c.discard p).blobs = none ↔ c.blobs = none := by
  unfold discard invalidate
  split
  · split <;> simp_all
  · simp_all

theorem consult_of_blobs_none (h : c.blobs = none) : c.consult p n = (.bypass, c) := by
  simp [consult, h]

theorem consult_of_hit {b : List UInt8} (h : c.blob? p = some b) (hn : b.length = n) :
    c.consult p n = (.hit b, { c with counters := c.counters.hit }) := by
  unfold consult
  cases hb : c.blobs with
  | none => simp [blob?, hb] at h
  | some t =>
    have ht : t.get? p = some b := by simpa [blob?, hb] using h
    simp [ht, hn]

/-- A read finds a blob of the expected length, or none of it. -/
theorem hit_or_miss (c : ContentCache) (p : Path) (n : Nat) :
    (∃ b, c.blob? p = some b ∧ b.length = n) ∨ ∀ b, c.blob? p = some b → b.length ≠ n := by
  cases hb : c.blob? p with
  | none => exact Or.inr fun b h => by cases h
  | some b =>
    by_cases hn : b.length = n
    · exact Or.inl ⟨b, rfl, hn⟩
    · exact Or.inr fun b' h => by cases h; exact hn

/-- A read with no blob of the expected length drops the blob it finds, if any, and counts a
miss. -/
theorem consult_of_miss (he : c.blobs.isSome) (hm : ∀ b, c.blob? p = some b → b.length ≠ n) :
    c.consult p n = (.miss, { c.discard p with counters := (c.discard p).counters.miss }) := by
  obtain ⟨t, ht⟩ := Option.isSome_iff_exists.1 he
  unfold consult
  rw [ht]
  cases hg : t.get? p with
  | none =>
    have hd : c.discard p = c := by
      have hc : t.contains p = false := by simp [Table.contains, hg]
      simp [discard, invalidate, ht, hc]
    simp [hg, hd, ht]
  | some b =>
    have hb : b.length ≠ n := hm b (by simp [blob?, ht, hg])
    simp [hg, hb]

theorem fetch_of_consult_miss {c' : ContentCache} (h : c.consult p n = (.miss, c'))
    (source : Except Error (List UInt8)) :
    c.fetch p n source = ((source, true), match source with
      | .ok bytes => c'.keep p n bytes
      | .error _ => c') := by
  cases source <;> simp [fetch, h]

/-! ### What a read keeps -/

theorem blobs_keep (c : ContentCache) (p : Path) (n : Nat) (bytes : List UInt8) :
    (c.keep p n bytes).blobs.isSome = c.blobs.isSome := by
  unfold keep
  split
  · split <;> simp_all
  · rfl

theorem blob?_keep_eq (c : ContentCache) (p q : Path) (n : Nat) (bytes : List UInt8)
    (he : c.blobs.isSome) :
    (c.keep p n bytes).blob? q =
      if q = p ∧ bytes.length = n then some bytes else c.blob? q := by
  obtain ⟨t, ht⟩ := Option.isSome_iff_exists.1 he
  by_cases hn : bytes.length = n
  · by_cases hq : q = p <;> simp [keep, blob?, ht, hn, hq]
  · simp [keep, blob?, ht, hn]

theorem keep_counters (c : ContentCache) (p : Path) (n : Nat) (bytes : List UInt8)
    (he : c.blobs.isSome) :
    (c.keep p n bytes).counters =
      if bytes.length = n then c.counters.insert else c.counters.reject := by
  obtain ⟨t, ht⟩ := Option.isSome_iff_exists.1 he
  by_cases hn : bytes.length = n <;> simp [keep, ht, hn]

/-- The blobs and counters after a miss: the wrong blob dropped, a miss counted, and the
source's bytes kept when there are as many as expected. -/
theorem fetch_miss (he : c.blobs.isSome) (hm : ∀ b, c.blob? p = some b → b.length ≠ n)
    (source : Except Error (List UInt8)) :
    (c.fetch p n source).1 = (source, true) ∧
    (c.fetch p n source).2.blobs.isSome ∧
    (∀ q, q ≠ p → (c.fetch p n source).2.blob? q = c.blob? q) ∧
    (c.fetch p n source).2.blob? p = (match source with
      | .ok bytes => if bytes.length = n then some bytes else none
      | .error _ => none) ∧
    (c.fetch p n source).2.counters =
      (let k := (if (c.blob? p).isSome then c.counters.eviction else c.counters).miss
       match source with
       | .ok bytes => if bytes.length = n then k.insert else k.reject
       | .error _ => k) := by
  have hc := fetch_of_consult_miss (consult_of_miss he hm) source
  set c1 := { c.discard p with counters := (c.discard p).counters.miss } with hc1
  have he1 : c1.blobs.isSome := by
    cases h : c.blobs with
    | none => simp [h] at he
    | some t => simp [hc1, Option.isSome_iff_ne_none, discard_blobs_eq_none, h]
  have hb1 : ∀ q, c1.blob? q = if q = p then none else c.blob? q := fun q => by
    simpa [hc1, blob?] using blob?_discard c p q
  have hk1 : c1.counters = (if (c.blob? p).isSome then c.counters.eviction else c.counters).miss := by
    simp [hc1, discard_counters]
  rw [hc]
  refine ⟨rfl, ?_, fun q hq => ?_, ?_, ?_⟩
  · cases source with
    | ok bytes => simp [blobs_keep, he1]
    | error e => exact he1
  · cases source with
    | ok bytes => simp [blob?_keep_eq _ _ _ _ _ he1, hq, hb1]
    | error e => simp [hb1, hq]
  · cases source with
    | ok bytes => by_cases hn : bytes.length = n <;> simp [blob?_keep_eq _ _ _ _ _ he1, hn, hb1]
    | error e => simp [hb1]
  · cases source with
    | ok bytes => simp [keep_counters _ _ _ _ he1, hk1]
    | error e => simp [hk1]

/-! ### Runs of calls -/

/-- A call that changes a content cache. -/
inductive Op where
  | fetch (p : Path) (expected : Nat) (source : Except Error (List UInt8))
  | invalidate (p : Path)
  | dispose

/-- The cache after a call, its answer dropped. -/
def Op.apply : Op → ContentCache → ContentCache
  | .fetch p n source, c => (c.fetch p n source).2
  | .invalidate p, c => (c.invalidate p).2
  | .dispose, c => c.dispose

/-- The cache after a list of calls. -/
def replay (c : ContentCache) (ops : List Op) : ContentCache := ops.foldl (fun c o => o.apply c) c

@[simp] theorem replay_nil (c : ContentCache) : c.replay [] = c := rfl

@[simp] theorem replay_cons (c : ContentCache) (o : Op) (ops : List Op) :
    c.replay (o :: ops) = (o.apply c).replay ops := rfl

theorem fetch_blobs_eq_none (c : ContentCache) (p : Path) (n : Nat)
    (source : Except Error (List UInt8)) :
    (c.fetch p n source).2.blobs = none ↔ c.blobs = none := by
  cases hb : c.blobs with
  | none => simp [fetch, consult, hb]
  | some t =>
    have he : c.blobs.isSome := by simp [hb]
    rcases hit_or_miss c p n with ⟨b, hbp, hbn⟩ | hm
    · simp [fetch, consult_of_hit hbp hbn, hb]
    · have := (fetch_miss he hm source).2.1
      simp_all [Option.isSome_iff_ne_none]

/-- Only a disposal takes the store away, and nothing brings it back. -/
theorem apply_blobs_eq_none (o : Op) (c : ContentCache) :
    (o.apply c).blobs = none ↔ c.blobs = none ∨ o = .dispose := by
  cases o with
  | fetch p n source => simp [Op.apply, fetch_blobs_eq_none]
  | invalidate p =>
    show (c.discard p).blobs = none ↔ _
    simp [discard_blobs_eq_none]
  | dispose => simp [Op.apply, dispose]

theorem blobs_replay_eq_none (c : ContentCache) (ops : List Op) :
    (c.replay ops).blobs = none ↔ c.blobs = none ∨ Op.dispose ∈ ops := by
  induction ops generalizing c with
  | nil => simp
  | cons o ops ih =>
    rw [replay_cons, ih, apply_blobs_eq_none]
    constructor
    · rintro ((h | rfl) | h)
      · exact Or.inl h
      · exact Or.inr (List.mem_cons_self ..)
      · exact Or.inr (List.mem_cons_of_mem _ h)
    · rintro (h | h)
      · exact Or.inl (Or.inl h)
      · rcases List.mem_cons.1 h with h | h
        · exact Or.inl (Or.inr h.symm)
        · exact Or.inr h

/-- Every blob of `c` is the download of a read in `ops` of its path that expected its
length. -/
def Stored (c : ContentCache) (ops : List Op) : Prop :=
  ∀ p b, c.blob? p = some b → Op.fetch p b.length (.ok b) ∈ ops

/-- A read keeps a blob it found or the bytes it downloaded, when they had the expected
length. -/
theorem blob?_fetch {source : Except Error (List UInt8)} {b : List UInt8}
    (h : (c.fetch p n source).2.blob? q = some b) :
    c.blob? q = some b ∨ q = p ∧ source = .ok b ∧ b.length = n := by
  by_cases he : c.blobs.isSome
  · rcases hit_or_miss c p n with ⟨b', hbp, hbn⟩ | hm
    · rw [fetch, consult_of_hit hbp hbn] at h
      exact Or.inl h
    · obtain ⟨-, -, hq, hp, -⟩ := fetch_miss he hm source
      by_cases hqp : q = p
      · subst hqp
        rw [hp] at h
        cases source with
        | ok bytes =>
          by_cases hn : bytes.length = n
          · simp only [hn, if_true, Option.some.injEq] at h
            exact Or.inr ⟨rfl, by rw [h], h ▸ hn⟩
          · simp [hn] at h
        | error e => cases h
      · exact Or.inl (hq q hqp ▸ h)
  · simp only [Bool.not_eq_true, Option.isSome_eq_false_iff, Option.isNone_iff_eq_none] at he
    rw [fetch, consult_of_blobs_none he] at h
    exact Or.inl h

/-- One call keeps every blob accounted for. -/
theorem Stored.apply {ops : List Op} (h : c.Stored ops) (o : Op) : (o.apply c).Stored (ops ++ [o]) := by
  intro q b hb
  cases o with
  | fetch p n source =>
    rcases blob?_fetch hb with hb | ⟨rfl, rfl, rfl⟩
    · exact List.mem_append_left _ (h q b hb)
    · exact List.mem_append_right _ (List.mem_singleton_self _)
  | invalidate p =>
    have hb' : (c.discard p).blob? q = some b := hb
    rw [blob?_discard] at hb'
    split at hb'
    · cases hb'
    · exact List.mem_append_left _ (h q b hb')
  | dispose => simp [Op.apply, dispose, blob?] at hb

theorem Stored.replay {ops : List Op} (h : c.Stored ops) (more : List Op) :
    (c.replay more).Stored (ops ++ more) := by
  induction more generalizing c ops with
  | nil => simpa using h
  | cons o more ih =>
    have := ih (h.apply o)
    simpa using this

/-- A new cache, with a blob store or without. -/
def create (disabled : Bool) : ContentCache := if disabled then .disabled else .enabled

theorem stored_create (disabled : Bool) : (create disabled).Stored [] := by
  intro p b h
  cases disabled <;> simp [create, ContentCache.enabled, ContentCache.disabled, blob?] at h

/-- The read contract after any run of calls from a new cache: with no store a read passes
through; a blob of the expected length is served as a hit; otherwise the source answers, and its
bytes are kept exactly when they have the expected length. -/
theorem fetch_contract (disabled : Bool) (ops : List Op) :
    let c := (create disabled).replay ops
    (c.blobs = none ↔ disabled = true ∨ Op.dispose ∈ ops) ∧
    (∀ p b, c.blob? p = some b → Op.fetch p b.length (.ok b) ∈ ops) ∧
    ∀ p n source,
      (c.blobs = none → c.fetch p n source = ((source, true), c)) ∧
      (∀ b, c.blob? p = some b → b.length = n →
        c.fetch p n source = ((.ok b, false), { c with counters := c.counters.hit })) ∧
      (c.blobs.isSome → (∀ b, c.blob? p = some b → b.length ≠ n) →
        (c.fetch p n source).1 = (source, true) ∧
        (c.fetch p n source).2.blobs.isSome ∧
        (∀ q, q ≠ p → (c.fetch p n source).2.blob? q = c.blob? q) ∧
        (c.fetch p n source).2.blob? p = (match source with
          | .ok bytes => if bytes.length = n then some bytes else none
          | .error _ => none) ∧
        (c.fetch p n source).2.counters =
          (let k := (if (c.blob? p).isSome then c.counters.eviction else c.counters).miss
           match source with
           | .ok bytes => if bytes.length = n then k.insert else k.reject
           | .error _ => k)) := by
  intro c
  have hnone : (create disabled).blobs = none ↔ disabled = true := by
    cases disabled <;> simp [create, ContentCache.enabled, ContentCache.disabled]
  refine ⟨by rw [blobs_replay_eq_none, hnone], fun p b h => ?_, fun p n source => ⟨fun h => ?_,
    fun b hb hn => by rw [fetch, consult_of_hit hb hn], fun he hm => fetch_miss he hm source⟩⟩
  · simpa using (stored_create disabled).replay ops p b h
  · rw [fetch, consult_of_blobs_none h]

end ContentCache

end FrontCache
