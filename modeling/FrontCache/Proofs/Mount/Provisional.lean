import FrontCache.Proofs.Mount.Uploads
import FrontCache.Proofs.Mount.Shape
/-!
# The provisional size of an upload

While a file is being written, `metadata` answers with the size its upload record holds. A
write through a handle raises the record of the handle's path to the handle's new position,
whichever upload that record belongs to; so a handle still open on a path after a newer upload
of the path started raises the newer upload's record.

`SizedBy R m` says that every record is held by an open handle on its path, under the
record's ticket, whose position stands to the record's size as `R` says. Every action keeps it
for `R = (· ≤ ·)`. For `R = Eq` every action keeps it but a write through a handle whose path's
record belongs to a newer upload; `OwnWrite` is the guard that rules those out.

Main statement (`provisional_size_bounds`): whenever `metadata p` answers with a provisional
size, the handle that received the latest ticket issued for `p` is open and its position is at
most that size; along runs whose writes go through the handle holding their path's record, the
size is that position. An older handle can raise it above
(`older_handle_raises_provisional_size`).
-/
namespace FrontCache

namespace Volume

set_option mvcgen.warning false

open Std.Do in
/-- `metadata` answers with the size of a path's upload record while it has one, and otherwise
with the entry `resolve` finds or its failure. -/
theorem metadata_spec (p : Path) (v0 : Volume) :
    ⦃fun v => ⌜v = v0⌝⦄ metadata p
    ⦃post⟨fun a _ => ⌜(∃ n, v0.uploads.size? p = some n ∧ a = .provisional p n) ∨
        (v0.uploads.size? p = none ∧ ∃ e, a = .entry e)⌝,
      fun _ _ => ⌜v0.uploads.size? p = none⌝⟩⦄ := by
  unfold metadata
  mvcgen
  all_goals subst_vars
  · exact .inl ⟨_, ‹Uploads.size? _ p = some _›, rfl⟩
  · exact .inr ⟨‹Uploads.size? _ p = none›, _, rfl⟩
  · exact fun _ _ => ‹Uploads.size? _ p = none›

/-- `metadata` answers with a provisional size exactly when an upload of the path is in
flight, and the size is the one its record holds. -/
theorem metadata_eq_provisional_iff (v : Volume) (p q : Path) (n : Nat) :
    (((metadata p).run).run v).1 = .ok (.provisional q n) ↔
      q = p ∧ v.uploads.size? p = some n := by
  have hrun := (triple_iff_run _ _ _ _).1 (metadata_spec p v) v rfl
  cases h : ((metadata p).run).run v with
  | mk r w =>
    rw [h] at hrun
    cases r with
    | ok a =>
      rcases hrun with ⟨k, hk, rfl⟩ | ⟨hnone, e, rfl⟩
      · rw [hk]
        constructor
        · intro he
          cases he
          exact ⟨rfl, rfl⟩
        · rintro ⟨rfl, hn⟩
          cases hn
          rfl
      · simp [hnone]
    | error e => simp [hrun]

end Volume

namespace Mount

/-- Every upload record is held by an open handle on its path, under the record's ticket,
whose position stands to the record's size as `R` says. -/
def SizedBy (R : Nat → Nat → Prop) (m : Mount) : Prop :=
  ∀ p r, m.volume.uploads.records.get? p = some r →
    ∃ k hd, m.handles.get? k = some hd ∧ hd.path = p ∧ hd.ticket = r.ticket ∧
      R hd.position r.size

/-- A write goes through the handle that holds its path's record, if the path has one. -/
def OwnWrite (m : Mount) : Action → Prop
  | .write n _ => ∀ hd r, m.handle? n = some hd →
      m.volume.uploads.records.get? hd.path = some r → r.ticket = hd.ticket
  | _ => True

namespace UploadsTrack

variable {u : Uploads} {handles : Table Nat Handle} {next : Nat} {L : List (Nat × Handle)}

/-- No open handle has the number the mount hands out next. -/
theorem get?_next (h : UploadsTrack u handles next L) : handles.get? next = none := by
  cases hk : handles.get? next with
  | none => rfl
  | some a =>
    obtain ⟨a0, ha0, -⟩ := h.handlesOpened next a hk
    exact absurd (h.numbersIssued _ ha0) (Nat.lt_irrefl _)

/-- Two open handles that hold the same ticket are one handle. -/
theorem eq_of_open (h : UploadsTrack u handles next L) {k n : Nat} {a b : Handle}
    (hk : handles.get? k = some a) (hn : handles.get? n = some b) (ht : a.ticket = b.ticket) :
    k = n := by
  obtain ⟨a0, ha0, -, hta⟩ := h.handlesOpened k a hk
  obtain ⟨b0, hb0, -, htb⟩ := h.handlesOpened n b hn
  exact congrArg Prod.fst (h.eq_of_ticket ha0 hb0 (by rw [hta, htb, ht]))

end UploadsTrack

namespace SizedBy

variable {R : Nat → Nat → Prop} {m : Mount}

theorem create (o : Options) : SizedBy R (Mount.create o) := by
  intro p r hr
  cases hr

/-- An action that changes neither the records nor the open handles keeps `SizedBy`. -/
theorem of_eq {m' : Mount} (h : SizedBy R m) (hu : m'.volume.uploads = m.volume.uploads)
    (hh : ∀ k, m'.handles.get? k = m.handles.get? k) : SizedBy R m' := by
  intro p r hr
  rw [hu] at hr
  simp only [hh]
  exact h p r hr

/-- An open that succeeds starts a record held by the new handle, at its starting position;
the handle takes a number no open handle has. -/
theorem start (hrefl : ∀ a, R a a) (h : SizedBy R m) {hd : Handle} {u : Uploads}
    {handles : Table Nat Handle} (hfresh : m.handles.get? m.nextHandle = none)
    (hu : u = (m.volume.uploads.start hd.path hd.position).2)
    (hh : handles = m.handles.insert m.nextHandle hd) (hticket : hd.ticket = m.volume.uploads.nextTicket)
    {m' : Mount} (hu' : m'.volume.uploads = u) (hh' : m'.handles = handles) : SizedBy R m' := by
  intro q r hr
  rw [hu', hu, Uploads.get?_start] at hr
  rw [hh', hh]
  by_cases hq : q = hd.path
  · rw [if_pos hq] at hr
    cases hr
    exact ⟨m.nextHandle, hd, by simp, hq.symm, hticket, hrefl _⟩
  · rw [if_neg hq] at hr
    obtain ⟨k, hdk, hk, hp, ht, hR⟩ := h q r hr
    have hne : k ≠ m.nextHandle := by
      rintro rfl
      rw [hfresh] at hk
      cases hk
    exact ⟨k, hdk, by simp [hne, hk], hp, ht, hR⟩

/-- A handle ends: its own record ends with it, and every other record keeps its holder. -/
theorem finish (h : SizedBy R m) {n : Nat} {hd : Handle} (hn : m.handles.get? n = some hd)
    {m' : Mount} (hu : m'.volume.uploads = (m.volume.uploads.finish hd.path hd.ticket).2)
    (hh : m'.handles = m.handles.erase n) : SizedBy R m' := by
  intro q r hr
  rw [hu, Uploads.get?_finish] at hr
  rw [hh]
  split at hr
  · cases hr
  · rename_i hnot
    obtain ⟨k, hdk, hk, hp, ht, hR⟩ := h q r hr
    have hne : k ≠ n := by
      rintro rfl
      rw [hn] at hk
      cases hk
      exact hnot ⟨hp.symm, by rw [hp, hr, ht]; rfl⟩
    exact ⟨k, hdk, by simp [hne, hk], hp, ht, hR⟩

/-- A write of some bytes through handle `n`: the record of its path rises to the handle's
new position. `SizedBy R` survives if `R` survives the rise for the writing handle (`hown`) and
for whichever other open handle holds that record (`hother`). -/
theorem write (h : SizedBy R m) {n : Nat} {hd : Handle} (hn : m.handles.get? n = some hd)
    (bytes : List UInt8) (hown : ∀ a b c, R a b → a ≤ c → R c (max b c))
    (hother : ∀ k hdk r, m.handles.get? k = some hdk → k ≠ n →
      m.volume.uploads.records.get? hd.path = some r → hdk.ticket = r.ticket →
      R hdk.position r.size → R hdk.position (max r.size (hd.position + bytes.length))) :
    SizedBy R (m.act (.write n bytes)) := by
  rw [act_write]
  simp only [handle?, hn]
  unfold Volume.write
  split
  · refine of_eq h rfl fun k => ?_
    by_cases hk : k = n
    · subst hk
      simp [hn]
    · simp [hk]
  · intro q r hr
    simp only [Uploads.get?_observe] at hr
    split at hr
    · rename_i hq
      subst hq
      obtain ⟨r0, hr0, rfl⟩ := Option.map_eq_some_iff.1 hr
      obtain ⟨k, hdk, hk, hp, ht, hR⟩ := h _ r0 hr0
      by_cases hkn : k = n
      · subst hkn
        rw [hn] at hk
        cases hk
        exact ⟨k, { hd with position := hd.position + bytes.length, buffer := hd.buffer ++ bytes },
          by simp, hp, ht, hown _ _ _ hR (Nat.le_add_right _ _)⟩
      · exact ⟨k, hdk, by simp [hkn, hk], hp, ht, hother k hdk r0 hk hkn hr0 ht hR⟩
    · rename_i hq
      obtain ⟨k, hdk, hk, hp, ht, hR⟩ := h q r hr
      have hkn : k ≠ n := by
        rintro rfl
        rw [hn] at hk
        cases hk
        exact hq hp.symm
      exact ⟨k, hdk, by simp [hkn, hk], hp, ht, hR⟩

/-- Every action keeps `SizedBy R`, for a reflexive `R`, in a tracked mount, as long as the
writes do. -/
theorem act (hrefl : ∀ a, R a a) {L : List (Nat × Handle)} (ht : m.Tracks L) (h : SizedBy R m)
    {a : Action} (hwrite : ∀ n bytes, a = .write n bytes → SizedBy R (m.act a)) :
    SizedBy R (m.act a) := by
  cases a with
  | request r =>
    show SizedBy R (m.request r)
    obtain ⟨hh, -⟩ := request_handles m r
    exact of_eq h (request_uploads m r) fun _ => by rw [hh]
  | openWrite p replace append =>
    have hrun := openWrite_uploads m.volume p replace append
    rw [act_openWrite]
    revert hrun
    rcases ((Volume.openWrite p replace append).run).run m.volume with ⟨_ | hd, w⟩
    · intro hw
      exact of_eq h hw fun _ => rfl
    · rintro ⟨hw, rfl, hticket⟩
      exact start hrefl h ht.get?_next rfl rfl hticket hw rfl
  | write n bytes => exact hwrite n bytes rfl
  | commit n =>
    rw [act_commit]
    cases hn : m.handle? n with
    | none => exact h
    | some hd => exact finish h hn (commit_uploads _ _) rfl
  | abandon n =>
    rw [act_abandon]
    cases hn : m.handle? n with
    | none => exact h
    | some hd => exact finish h hn (close_uploads _ _) rfl
  | external f => exact of_eq h rfl fun _ => rfl

/-- Along a run of actions that `ok` admits, `SizedBy R` holds in every state, when every
admitted write keeps it. -/
theorem replay (hrefl : ∀ a, R a a) {ok : Mount → Action → Prop}
    (hwrite : ∀ (m : Mount) (L : List (Nat × Handle)) n bytes, m.Tracks L → SizedBy R m →
      ok m (.write n bytes) → SizedBy R (m.act (.write n bytes)))
    {L : List (Nat × Handle)} {acts : List Action} (ht : m.Tracks L) (h : SizedBy R m)
    (hacts : Along ok m acts) : SizedBy R (m.replay acts) := by
  induction acts generalizing m L with
  | nil => exact h
  | cons a rest ih =>
    refine ih (ht.act a) (act hrefl ht h fun n bytes ha => ?_) hacts.2
    subst ha
    exact hwrite m L n bytes ht h hacts.1

/-- Every write keeps every record at or above the position of the handle that holds it:
positions only grow, and a record only rises. -/
theorem le_write (h : SizedBy (· ≤ ·) m) (n : Nat) (bytes : List UInt8) :
    SizedBy (· ≤ ·) (m.act (.write n bytes)) := by
  cases hn : m.handle? n with
  | none =>
    rw [act_write, hn]
    exact h
  | some hd =>
    exact write h hn bytes (fun _ b c _ _ => le_max_right b c)
      fun _ _ _ _ _ _ _ hle => le_max_of_le_left hle

/-- A write through the handle that holds its path's record keeps every record at exactly
the position of its holder: that record rises to the writer's new position, and no other
open handle holds the same ticket. -/
theorem eq_write {L : List (Nat × Handle)} (ht : m.Tracks L) (h : SizedBy Eq m) {n : Nat}
    {bytes : List UInt8} (hown : OwnWrite m (.write n bytes)) :
    SizedBy Eq (m.act (.write n bytes)) := by
  cases hn : m.handle? n with
  | none =>
    rw [act_write, hn]
    exact h
  | some hd =>
    refine write h hn bytes (fun a b c hab hac => (max_eq_right (hab ▸ hac)).symm) ?_
    intro k hdk r hk hkn hr htk _
    exact absurd (ht.eq_of_open hk hn (htk.trans (hown hd r hn hr))) hkn

end SizedBy

/-- Every run admits the actions that every mount admits. -/
theorem along_of_forall {ok : Mount → Action → Prop} (h : ∀ m a, ok m a) (m : Mount)
    (acts : List Action) : Along ok m acts := by
  induction acts generalizing m with
  | nil => trivial
  | cons a rest ih => exact ⟨h m a, ih (m.act a)⟩

@[simp] theorem run_fst {α : Type} (m : Mount) (x : VolM α) :
    (m.run x).1 = ((x.run).run m.volume).1 := rfl

/-- In a tracked mount, a record holds the largest ticket issued for its path. -/
theorem Tracks.latest_of_record {m : Mount} {L : List (Nat × Handle)} (ht : m.Tracks L)
    {p : Path} {r : Upload} (hr : m.volume.uploads.records.get? p = some r) :
    ∀ x ∈ L, x.2.path = p → x.2.ticket ≤ r.ticket := by
  have hlive := ht.records p
  rw [hr] at hlive
  obtain ⟨x, hl, -, hxt⟩ := (liveTicket_eq_some_iff _ _ _ _).1 hlive.symm
  obtain ⟨-, -, hmax⟩ := (lastOpened_eq_some_iff ht.ticketsRise p x).1 hl
  intro y hy hyp
  rw [← hxt]
  exact hmax y hy hyp

/-- In a tracked mount with `SizedBy R`, a provisional answer for `p` comes from the record of
an open handle on `p` that holds the latest ticket issued for `p`, and whose position stands
to the answered size as `R` says. -/
theorem provisional_holder {R : Nat → Nat → Prop} {m : Mount} {L : List (Nat × Handle)}
    (ht : m.Tracks L) (h : SizedBy R m) {p : Path} {n : Nat}
    (hmeta : (m.run (Volume.metadata p)).1 = .ok (.provisional p n)) :
    ∃ k hd, m.handles.get? k = some hd ∧ hd.path = p ∧
      (∀ x ∈ L, x.2.path = p → x.2.ticket ≤ hd.ticket) ∧ R hd.position n := by
  rw [run_fst, Volume.metadata_eq_provisional_iff] at hmeta
  obtain ⟨r, hr, rfl⟩ := Option.map_eq_some_iff.1 hmeta.2
  obtain ⟨k, hd, hk, hp, htk, hR⟩ := h p r hr
  exact ⟨k, hd, hk, hp, htk ▸ ht.latest_of_record hr, hR⟩

/-- A provisional size of `p` is at least the position of the open handle holding the latest
ticket for `p`, and equals it along runs that write through the handle holding the record. -/
theorem provisional_size_bounds (o : Options) (acts : List Action) (p : Path) (n : Nat) :
    ((((Mount.create o).replay acts).run (Volume.metadata p)).1 = .ok (.provisional p n) →
      ∃ k hd, ((Mount.create o).replay acts).handles.get? k = some hd ∧ hd.path = p ∧
        (∀ x ∈ (Mount.create o).openings acts, x.2.path = p → x.2.ticket ≤ hd.ticket) ∧
        hd.position ≤ n) ∧
    (Along OwnWrite (Mount.create o) acts →
      (((Mount.create o).replay acts).run (Volume.metadata p)).1 = .ok (.provisional p n) →
      ∃ k hd, ((Mount.create o).replay acts).handles.get? k = some hd ∧ hd.path = p ∧
        (∀ x ∈ (Mount.create o).openings acts, x.2.path = p → x.2.ticket ≤ hd.ticket) ∧
        hd.position = n) := by
  have ht := (tracks_create o).replay acts
  rw [List.nil_append] at ht
  have hle : SizedBy (· ≤ ·) ((Mount.create o).replay acts) :=
    SizedBy.replay Nat.le_refl (fun _ _ n bytes _ h _ => h.le_write n bytes) (tracks_create o)
      (SizedBy.create o) (along_of_forall (fun _ _ => trivial) _ acts)
  refine ⟨provisional_holder ht hle, fun hacts => provisional_holder ht ?_⟩
  exact SizedBy.replay (fun _ => rfl) (fun _ _ _ _ ht h hown => h.eq_write ht hown)
    (tracks_create o) (SizedBy.create o) hacts

theorem provisional_size_of_own_writes :
    Along OwnWrite (Mount.create {})
        [.openWrite (Path.root.join "a") false false, .write 0 [1, 2, 3]] ∧
      (((Mount.create {}).replay [.openWrite (Path.root.join "a") false false,
        .write 0 [1, 2, 3]]).run (Volume.metadata (Path.root.join "a"))).1 =
        .ok (.provisional (Path.root.join "a") 3) ∧
      ∃ k hd, ((Mount.create {}).replay [.openWrite (Path.root.join "a") false false,
          .write 0 [1, 2, 3]]).handles.get? k = some hd ∧ hd.path = Path.root.join "a" ∧
        (∀ x ∈ (Mount.create {}).openings [.openWrite (Path.root.join "a") false false,
          .write 0 [1, 2, 3]], x.2.path = Path.root.join "a" → x.2.ticket ≤ hd.ticket) ∧
        hd.position = 3 := by
  have hhandle : ((Mount.create {}).act (.openWrite (Path.root.join "a") false false)).handle? 0 =
      some ⟨Path.root.join "a", 1, 0, []⟩ := by
    cbv
  have hrecord : ((Mount.create {}).act (.openWrite (Path.root.join "a") false false)).volume.uploads.records.get?
      (Path.root.join "a") = some ⟨1, 0⟩ := by
    cbv
  have hacts : Along OwnWrite (Mount.create {})
      [.openWrite (Path.root.join "a") false false, .write 0 [1, 2, 3]] := by
    refine ⟨trivial, ?_, trivial⟩
    intro hd r hn hr
    rw [hhandle] at hn
    cases hn
    rw [hrecord] at hr
    cases hr
    rfl
  have hmeta : (((Mount.create {}).replay [.openWrite (Path.root.join "a") false false,
      .write 0 [1, 2, 3]]).run (Volume.metadata (Path.root.join "a"))).1 =
      .ok (.provisional (Path.root.join "a") 3) := by
    cbv
  exact ⟨hacts, hmeta, (provisional_size_bounds {} _ _ _).2 hacts hmeta⟩

/-- An older handle raises the newer upload's record. Two uploads of `/a` are opened and three
bytes go through the first: `metadata` answers 3, while the record holds the second upload's
ticket and the second handle is at position 0. -/
theorem older_handle_raises_provisional_size :
    (((Mount.create {}).replay [.openWrite (Path.root.join "a") false false,
        .openWrite (Path.root.join "a") false false, .write 0 [1, 2, 3]]).run
        (Volume.metadata (Path.root.join "a"))).1 = .ok (.provisional (Path.root.join "a") 3) ∧
      ((Mount.create {}).replay [.openWrite (Path.root.join "a") false false,
        .openWrite (Path.root.join "a") false false, .write 0 [1, 2, 3]]).handle? 1 =
        some ⟨Path.root.join "a", 2, 0, []⟩ ∧
      (((Mount.create {}).replay [.openWrite (Path.root.join "a") false false,
        .openWrite (Path.root.join "a") false false,
        .write 0 [1, 2, 3]]).volume.uploads.records.get? (Path.root.join "a")).map
        Upload.ticket = some 2 := by
  refine ⟨?_, ?_, ?_⟩
  · cbv
  · cbv
  · cbv

end Mount

end FrontCache
