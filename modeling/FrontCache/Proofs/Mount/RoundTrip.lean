import FrontCache.Proofs.Mount.Provisional
import FrontCache.Proofs.Volume.Move
import FrontCache.Proofs.Cache.Blobs
/-!
# An upload's round trip

An upload is opened on a path, written through its handle and committed. In a coherent volume
and for a path its options show, the open takes the old bytes as the upload's base exactly when
appending, and starts the handle and the upload record at the base's length
(`openWrite_coherent_spec`); each write moves the handle and the record on together
(`Mount.replay_writes`); and the commit lands below the parent folder the open checked, after
which the caches hold the committed entry, the parent's listing names the path once and the
record is gone (`Volume.commit_round_trip`). Put together (`Mount.round_trip_of_coherent`): the
store holds the base followed by every byte written, and the committed entry's size, the
handle's last position and the size `metadata` reports before the commit agree.

Both conditions are needed. A commit over a folder made after the open breaks the store's tree,
so the volume it leaves is no longer coherent. An append to a hidden sidecar starts the
handle at 0, as for a free path, while the store seeds the upload with the old bytes
(`Mount.append_to_hidden_sidecar_outgrows_position`).
-/
namespace FrontCache

open Std.Do

set_option mvcgen.warning false

namespace Store

/-- A commit to a path below a folder lands: the store holds the bytes there and answers with an
entry of their length. -/
theorem commitUpload_lands {s0 : Store} {p : Path} (bytes : List UInt8)
    (hpar : ∃ d id cs, p.parent? = some d ∧ s0.node? d = some ⟨id, .folder cs⟩) :
    ⦃fun s => ⌜s = s0⌝⦄ commitUpload p bytes
    ⦃post⟨fun r s => ⌜∃ e, r = some e ∧ e.size = bytes.length ∧ s.readFile? p = some bytes⌝,
      fun _ _ => ⌜False⌝⟩⦄ := by
  unfold commitUpload apply
  mvcgen
  case vc1 =>
    exact ⟨_, rfl, by simp [overwrite, Node.entry], by simp [readFile?_overwrite]⟩
  case vc2 =>
    have hins := ‹Store.insert _ p _ = .ok _›
    obtain ⟨-, -, -, rfl, -⟩ := insert_eq_ok hins
    exact ⟨_, rfl, by simp [Node.entry], by simp [readFile?_insert hins]⟩
  case vc3 =>
    -- the path is free and its folder is there, so the insert cannot fail
    subst_vars
    have hins := ‹Store.insert _ p _ = .error _›
    obtain ⟨d, id, cs, hpar, hd⟩ := hpar
    obtain ⟨name, hsplit⟩ := Path.split?_of_parent? hpar
    rw [insert_of_free (.file bytes) ‹Store.node? _ p = none› (link_of_folder hsplit hd)] at hins
    cases hins

/-- What a lookup found at a path that holds a file or nothing has the size of the bytes there. -/
theorem found_size {s : Store} {p : Path} {r : Option Entry}
    (hsome : ∀ e, r = some e → s.entryAt p = some e) (hnone : r = none → s.node? p = none)
    (hbody : ∀ nd, s.node? p = some nd → ∃ data, nd.body = .file data) :
    (r.map Entry.size).getD 0 = ((s.readFile? p).getD []).length := by
  cases r with
  | none => simp [readFile?, hnone rfl]
  | some e =>
    obtain ⟨⟨id, b⟩, hn, rfl⟩ := Option.map_eq_some_iff.1 (hsome e rfl)
    obtain ⟨data, rfl⟩ := hbody _ hn
    simp [readFile?, hn, Node.entry]

end Store

namespace EntryCache

/-- Adding a path to a cache whose listings hold no path twice lists it under its parent once. -/
theorem listed_once_add {α : Type} {c : EntryCache α} (h : c.WellListed) {p d : Path}
    (hp : p.parent? = some d) (e : α) :
    ∃ l, (c.add p e).listing? d = some l ∧ l.count p = 1 := by
  rw [listing?_add]
  cases hl : c.listing? d with
  | none => simp [hp]
  | some l =>
    by_cases hmem : p ∈ l
    · have hcont : l.contains p = true := List.contains_iff_mem.2 hmem
      simp only [hp, Option.getD_some, hcont]
      exact ⟨l, rfl, List.count_eq_one_of_mem (h d l hl).1 hmem⟩
    · have hcont : l.contains p = false := by simpa using hmem
      simp only [hp, Option.getD_some, hcont, and_self, if_true, Option.some.injEq,
        exists_eq_left', List.count_append]
      simp [List.count_eq_zero_of_not_mem hmem]

end EntryCache

namespace Volume

theorem Quiet.uploads {v0 v : Volume} (h : Quiet v0 v) : v.uploads = v0.uploads := by
  obtain ⟨k, c, rfl⟩ := h
  rfl

/-- What the checks of an open leave before its record starts, in a coherent volume: lookups
only, a buffer that holds the old bytes exactly when appending, a starting position that is the
buffer's length, and a path that is a file or free below a folder. -/
theorem upload_checked {p : Path} {replace append : Bool} {v0 v2 v1 : Volume}
    {r : Option Entry} {dp : Path × Entry} {buf : List UInt8} {s : Store} (initial : Nat)
    (hc : v0.Coherent) (hs : (v0.options.ignoreSidecars && p.isSidecar) = false)
    (hinit : initial = if append then (r.map Entry.size).getD 0 else 0)
    (h2 : Quiet v0 v2 ∧ (v0.Coherent → v2.Coherent ∧
      (∀ e, r = some e → v0.store.entryAt p = some e ∧ Shown v0.options p) ∧
      (r = none → ¬ v0.Visible p)))
    (h1 : Quiet v2 v1 ∧ p.parent? = some dp.1 ∧ dp.2.isFolder = true ∧
      (v2.Coherent → v1.Coherent ∧ v2.store.entryAt dp.1 = some dp.2 ∧ Shown v2.options dp.1))
    (hup : ((Store.upload dp.2 p replace append).run).run v1.store = (.ok buf, s)) :
    (v1.uploads.start p initial).1 = v0.uploads.nextTicket ∧
      buf = (if append then (v0.store.readFile? p).getD [] else []) ∧
      initial = buf.length ∧
      (∃ d id cs, p.parent? = some d ∧ v0.store.node? d = some ⟨id, .folder cs⟩) ∧
      ∃ w, Quiet v0 w ∧ w.Coherent ∧
        { v1 with store := s, uploads := (v1.uploads.start p initial).2 } =
          { w with uploads := (v0.uploads.start p initial).2 } := by
  obtain ⟨hq2, hc2⟩ := h2
  obtain ⟨hc2', hsome, hnone⟩ := hc2 hc
  obtain ⟨hq1, hpar, -, hc1⟩ := h1
  obtain ⟨hc1', -, hshd⟩ := hc1 hc2'
  have hq : Quiet v0 v1 := hq2.trans hq1
  obtain ⟨hk, ⟨cs, hlive⟩, hbody⟩ :=
    ok_of_triple (Store.upload_spec dp.2 p replace append v1.store) hup
  rw [Store.holder_of_parent? hpar, Store.liveFolder_eq_ok, hq.node?] at hlive
  rw [hq.node?] at hbody
  have hshown : Shown v0.options p := by
    refine shown_of_parent (fun d hd => ?_) (by simp [hs])
    rw [hpar, Option.some.injEq] at hd
    subst hd
    rw [← hq2.options]
    exact hshd
  have hfree : r = none → v0.store.node? p = none := fun hr =>
    Option.not_isSome_iff_eq_none.1 fun hn => hnone hr ⟨hshown, hn⟩
  have hsize := Store.found_size (fun e he => (hsome e he).1) hfree fun nd hn => by
    rcases hbody with ⟨hn', -⟩ | ⟨id, data, hn', -⟩ <;> rw [hn'] at hn <;> cases hn
    exact ⟨data, rfl⟩
  have hbuf : buf = if append then (v0.store.readFile? p).getD [] else [] := by
    rcases hbody with ⟨hn, rfl⟩ | ⟨id, data, hn, rfl⟩ <;> simp [Store.readFile?, hn]
  refine ⟨by rw [hq.uploads]; rfl, hbuf, ?_, ⟨dp.1, dp.2.id, cs, hpar, hlive⟩,
    { v1 with store := s }, hq.bump hk, hc1'.bump hk, by rw [hq.uploads]⟩
  rw [hinit, hbuf]
  cases append
  · rfl
  · exact hsize

/-- An open in a coherent volume, of a path that its options show: the handle starts at the
length of its base, the old bytes when appending and nothing otherwise; the path lies below a
folder of the store; and the volume is coherent after the lookups, with a fresh upload record. -/
theorem openWrite_coherent_spec (p : Path) (replace append : Bool) (v0 : Volume)
    (hs : (v0.options.ignoreSidecars && p.isSidecar) = false) :
    ⦃fun v => ⌜v = v0 ∧ v0.Coherent⌝⦄ openWrite p replace append
    ⦃post⟨fun h v => ⌜h.path = p ∧ h.ticket = v0.uploads.nextTicket ∧
        h.buffer = (if append then (v0.store.readFile? p).getD [] else []) ∧
        h.position = h.buffer.length ∧
        (∃ d id cs, p.parent? = some d ∧ v0.store.node? d = some ⟨id, .folder cs⟩) ∧
        ∃ w, Quiet v0 w ∧ w.Coherent ∧ v = { w with uploads := (v0.uploads.start p h.position).2 }⌝,
      fun _ _ => ⌜True⌝⟩⦄ := by
  refine triple_guard fun hc => ?_
  unfold openWrite
  mvcgen [evictOnNotFound_spec]
  all_goals subst_vars
  all_goals obtain ⟨rfl, -⟩ := ‹_ = _ ∧ _›
  all_goals obtain ⟨s, hrun, rfl⟩ := ‹∃ s, StateT.run _ _ = _ ∧ _›
  all_goals have h2 := ‹Quiet _ _ ∧ (Volume.Coherent _ → _)›
  all_goals have h1 := ‹Quiet _ _ ∧ Path.parent? p = some _ ∧ _›
  case vc1 =>
    have hchk := upload_checked _ hc hs (by simp; rfl) h2 h1 hrun
    exact ⟨trivial, hchk⟩
  case vc2 =>
    have hchk := upload_checked 0 hc hs (by simp [‹¬ append = true›]) h2 h1 hrun
    exact ⟨trivial, hchk⟩
  case vc3 =>
    obtain rfl := Option.eq_none_iff_forall_ne_some.2 ‹∀ e : Entry, _ = some e → False›
    have hchk := upload_checked 0 hc hs (by simp) h2 h1 hrun
    exact ⟨trivial, hchk⟩

/-- A write through a handle whose upload record is current moves both on by the bytes. -/
theorem write_current {v : Volume} {h : Handle}
    (hr : v.uploads.records.get? h.path = some ⟨h.ticket, h.position⟩) (bytes : List UInt8) :
    (v.write h bytes).1 =
        { h with position := h.position + bytes.length, buffer := h.buffer ++ bytes } ∧
      ∃ u : Uploads, u.records.get? h.path = some ⟨h.ticket, h.position + bytes.length⟩ ∧
        (v.write h bytes).2 = { v with uploads := u } := by
  unfold write
  split
  · rename_i hb
    rw [List.isEmpty_iff] at hb
    subst hb
    exact ⟨by simp, v.uploads, by simpa using hr, rfl⟩
  · refine ⟨rfl, _, ?_, rfl⟩
    simp [Uploads.observe, hr]

/-- A commit that the store takes: the caches take the new entry and forget the old bytes, and
the handle's record ends. -/
theorem commit_taken {v : Volume} {h : Handle} {e : Entry} {s : Store}
    (hst : ((Store.commitUpload h.path h.buffer).run).run v.store = (.ok (some e), s)) :
    ((commit h).run).run v = (.ok (some e),
      { v with
        store := s
        entries := v.entries.add h.path e
        content := v.content.discard h.path
        uploads := (v.uploads.finish h.path h.ticket).2 }) := by
  have ht : ⦃fun w => ⌜w = v⌝⦄ commit h
      ⦃post⟨fun r w => ⌜r = some e ∧ w =
        { v with
          store := s
          entries := v.entries.add h.path e
          content := v.content.discard h.path
          uploads := (v.uploads.finish h.path h.ticket).2 }⌝, fun _ _ => ⌜False⌝⟩⦄ := by
    unfold commit close modifyContent modifyEntries
    mvcgen
    all_goals subst_vars
    case vc1 =>
      obtain ⟨s', hr, rfl⟩ := ‹∃ s, StateT.run _ _ = _ ∧ _›
      rw [hst, Prod.mk.injEq, Except.ok.injEq] at hr
      obtain ⟨⟨⟩, rfl⟩ := hr
      exact ⟨rfl, rfl⟩
    case vc2 =>
      obtain ⟨s', hr, -⟩ := ‹∃ s, StateT.run _ _ = _ ∧ _›
      rw [hst, Prod.mk.injEq, Except.ok.injEq] at hr
      exact (‹∀ e : Entry, _ = some e → False› e hr.1.symm).elim
    case vc3 =>
      obtain ⟨s', hr, -⟩ := ‹∃ s, StateT.run _ _ = _ ∧ _›
      rw [hst] at hr
      cases hr
  have := (triple_iff_run _ _ _ _).1 ht v rfl
  revert this
  rcases ((commit h).run).run v with ⟨_ | r, w⟩
  · exact False.elim
  · rintro ⟨rfl, rfl⟩
    rfl

/-- A commit after lookups and writes, of a handle whose upload record is current and whose path
lies below a folder of the store: it lands, the caches take the committed entry and forget the
old bytes, the parent's listing names the path once, and the record ends. -/
theorem commit_round_trip {v0 w : Volume} {u : Uploads} (hf : Handle) {k : Nat}
    (hq : Quiet v0 w) (hl : w.entries.WellListed)
    (hpar : ∃ d id cs, hf.path.parent? = some d ∧ v0.store.node? d = some ⟨id, .folder cs⟩)
    (hu : u.records.get? hf.path = some ⟨hf.ticket, k⟩) :
    ∃ e v, ((commit hf).run).run { w with uploads := u } = (.ok (some e), v) ∧
      e.size = hf.buffer.length ∧ v.store.readFile? hf.path = some hf.buffer ∧
      v.entries.entries.get? hf.path = some e ∧
      (∃ d l, hf.path.parent? = some d ∧ v.entries.listing? d = some l ∧ l.count hf.path = 1) ∧
      v.content.blob? hf.path = none ∧ v.uploads.size? hf.path = none := by
  obtain ⟨d, id, cs, hd, hfold⟩ := hpar
  rw [← hq.node?] at hfold
  have hland := (triple_iff_run _ _ _ _).1
    (Store.commitUpload_lands hf.buffer ⟨d, id, cs, hd, hfold⟩) w.store rfl
  revert hland
  rcases hst : ((Store.commitUpload hf.path hf.buffer).run).run w.store with ⟨_ | r, s⟩
  · exact False.elim
  · rintro ⟨e, rfl, hsize, hread⟩
    obtain ⟨l, hlist, hcount⟩ := EntryCache.listed_once_add hl hd e
    refine ⟨e, _, commit_taken hst, hsize, hread, by simp, ⟨d, l, hd, hlist, hcount⟩,
      by simp [ContentCache.blob?_discard], ?_⟩
    simp [Uploads.finish, Uploads.size?, hu]

end Volume

namespace Mount

/-- The options of a mounted volume never change. -/
theorem options_replay (o : Options) (acts : List Action) :
    ((Mount.create o).replay acts).volume.options = o := by
  have hI : Volume.Frame fun v => v.options = o :=
    ⟨fun _ _ h => h, fun _ _ h => h, fun _ _ h _ => h⟩
  exact keeps_replay (fun _ _ h => h) hI (Mount.create o) rfl acts

/-- An open that answers with a position ran the volume's open to a handle at that position, and
the handle took the next number. -/
theorem openWrite_ok {m : Mount} {p : Path} {replace append : Bool} {pos : Nat}
    (h : (m.openWrite p replace append).2.1 = .ok pos) :
    ∃ hd v, ((Volume.openWrite p replace append).run).run m.volume = (.ok hd, v) ∧
      hd.position = pos ∧
      m.act (.openWrite p replace append) =
        { volume := v, handles := m.handles.insert m.nextHandle hd,
          nextHandle := m.nextHandle + 1 } := by
  rw [act_openWrite]
  unfold Mount.openWrite Mount.run at h
  rcases hrun : ((Volume.openWrite p replace append).run).run m.volume with ⟨_ | hd, v⟩
  · simp [hrun] at h
  · simp only [hrun, Except.ok.injEq] at h
    exact ⟨hd, v, rfl, h, rfl⟩

/-- Writes through an open handle whose upload record is current move the handle and the record
on by all the bytes and leave the rest of the volume as it was. -/
theorem replay_writes {m : Mount} {n : Nat} {h : Handle} (ws : List (List UInt8))
    (hh : m.handle? n = some h)
    (hr : m.volume.uploads.records.get? h.path = some ⟨h.ticket, h.position⟩) :
    (m.replay (ws.map (.write n))).handle? n = some
        { h with position := h.position + ws.flatten.length, buffer := h.buffer ++ ws.flatten } ∧
      ∃ u : Uploads, u.records.get? h.path = some ⟨h.ticket, h.position + ws.flatten.length⟩ ∧
        (m.replay (ws.map (.write n))).volume = { m.volume with uploads := u } := by
  induction ws generalizing m h with
  | nil => exact ⟨by simpa using hh, m.volume.uploads, by simpa using hr, rfl⟩
  | cons b rest ih =>
    obtain ⟨hh1, u, hu, hv⟩ := Volume.write_current hr b
    have hact : m.act (.write n b) =
        { m with
          volume := { m.volume with uploads := u }
          handles := m.handles.insert n
            { h with position := h.position + b.length, buffer := h.buffer ++ b } } := by
      rw [act_write, hh, ← hh1, ← hv]
    have hm1 : (m.act (.write n b)).handle? n =
        some { h with position := h.position + b.length, buffer := h.buffer ++ b } := by
      simp [hact, handle?]
    have hr1 : (m.act (.write n b)).volume.uploads.records.get? h.path =
        some ⟨h.ticket, h.position + b.length⟩ := by
      rw [hact]
      exact hu
    obtain ⟨hh', u', hu', hv'⟩ := ih hm1 hr1
    simp only [List.map_cons, replay_cons, List.flatten_cons, List.length_append]
    refine ⟨by simpa [Nat.add_assoc] using hh', u', by simpa [Nat.add_assoc] using hu', ?_⟩
    rw [hv', hact]

/-- The round trip from any coherent mount whose listings hold no path twice. -/
theorem round_trip_of_coherent (m : Mount) (p : Path) (replace append : Bool)
    (ws : List (List UInt8)) (pos : Nat) (hc : m.volume.Coherent)
    (hl0 : m.volume.entries.WellListed)
    (hs : (m.volume.options.ignoreSidecars && p.isSidecar) = false)
    (hopen : (m.openWrite p replace append).2.1 = .ok pos) :
    let n := m.nextHandle
    let base := if append then (m.volume.store.readFile? p).getD [] else []
    let m1 := (m.act (.openWrite p replace append)).replay (ws.map (.write n))
    let v := (m1.act (.commit n)).volume
    pos = base.length ∧
      ∃ h e, m1.handle? n = some h ∧ h.position = pos + ws.flatten.length ∧
        (m1.run (Volume.metadata p)).1 = .ok (.provisional p h.position) ∧
        (m1.commit n).map Prod.fst = some (.ok (some e)) ∧ e.size = h.position ∧
        v.store.readFile? p = some (base ++ ws.flatten) ∧
        v.entries.entries.get? p = some e ∧
        (∃ d l, p.parent? = some d ∧ v.entries.listing? d = some l ∧ l.count p = 1) ∧
        v.content.blob? p = none ∧ v.uploads.size? p = none := by
  intro n base m1 v
  obtain ⟨hd, v1, hrun, rfl, hact⟩ := openWrite_ok hopen
  have hspec := (triple_iff_run _ _ _ _).1
    (Volume.openWrite_coherent_spec p replace append m.volume hs) m.volume ⟨rfl, hc⟩
  rw [hrun] at hspec
  obtain ⟨hpath, hticket, hbuf, hposlen, hpar, w, hq, -, rfl⟩ := hspec
  have hl : w.entries.WellListed := by
    have := keeps_act (fun _ _ h => h) wellListed_frame m hl0 (.openWrite p replace append)
    rwa [hact] at this
  have hh0 : (m.act (.openWrite p replace append)).handle? n = some hd := by
    simp [hact, handle?, n]
  have hr0 : (m.act (.openWrite p replace append)).volume.uploads.records.get? hd.path =
      some ⟨hd.ticket, hd.position⟩ := by
    simp [hact, Uploads.start, hpath, hticket]
  obtain ⟨hh1, u, hu, hv1⟩ := replay_writes ws hh0 hr0
  replace hh1 : m1.handle? n = some _ := hh1
  obtain ⟨e, v2, hcommit, hsize, hread, hget, hlist, hblob, hsz⟩ :=
    Volume.commit_round_trip
      { hd with position := hd.position + ws.flatten.length, buffer := hd.buffer ++ ws.flatten }
      hq hl (hpath ▸ hpar) hu
  have hm1 : m1.volume = { w with uploads := u } := by
    rw [show m1.volume = _ from hv1, hact]
  have hv : v = v2 := by
    simp only [v, act_commit, hh1, hm1, hcommit]
  simp only [hpath] at hsize hread hget hlist hblob hsz hu
  refine ⟨by rw [hposlen, hbuf], _, e, hh1, rfl, ?_, ?_, ?_, ?_, ?_, ?_, ?_, ?_⟩
  · rw [run_fst, hm1]
    exact (Volume.metadata_eq_provisional_iff _ p p _).2 ⟨rfl, by simp [Uploads.size?, hu]⟩
  · simp only [Mount.commit, hh1, Option.map_some, Prod.map_fst, id_eq, run_fst, hm1, hcommit]
  · rw [hsize, List.length_append, hposlen]
  · rw [hv, hread, hbuf]
  · rw [hv, hget]
  · rw [hv]
    exact hlist
  · rw [hv, hblob]
  · rw [hv, hsz]

/-- The round trip needs the path shown. With sidecars hidden, an append to a sidecar that holds
three bytes starts at position 0, as if the path were free, while the store seeds the upload with
the old bytes: after one more byte the handle stands at 1, and so does the size `metadata`
reports, but the committed entry has size 4. -/
theorem append_to_hidden_sidecar_outgrows_position :
    let m := (Mount.create { ignoreSidecars := true }).replay
      [.openWrite (Path.root.join "._x") false false, .write 0 [97, 98, 99], .commit 0,
        .openWrite (Path.root.join "._x") false true, .write 1 [100]]
    (m.handle? 1).map Handle.position = some 1 ∧
      (m.run (Volume.metadata (Path.root.join "._x"))).1 =
        .ok (.provisional (Path.root.join "._x") 1) ∧
      (m.commit 1).map (fun r => r.1.map (Option.map Entry.size)) = some (.ok (some 4)) := by
  cbv

end Mount

end FrontCache
