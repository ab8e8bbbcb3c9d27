import FrontCache.Proofs.Store.Tree
import FrontCache.ContentCache
/-!
# Paths as text

A path text is read by splitting it on `/` and normalizing the pieces from the left
(`normalize`): an empty piece and `.` change nothing, `..` drops the last component kept so far
(nothing at the root), and any other piece is the next component. `ofString` is exactly that,
with the standard library's split (`ofString_parts`); joining a text onto a path normalizes the
path's components followed by the pieces of the text (`join_parts_normalize`).

A path written back, its components joined by `/`, reads as the same path, with or without the
leading slash (`ofString_asStr`, `ofString_display`). So reading is idempotent, the absolute text
of a path determines the path, and two paths share a content-cache key only through an MD5
collision of their texts (`key_eq_iff`).
-/
namespace FrontCache

namespace Path

/-- One piece read onto the components kept so far. -/
def normalStep (kept : List String) (piece : String) : List String :=
  if piece = "" ∨ piece = "." then kept
  else if piece = ".." then kept.dropLast
  else kept ++ [piece]

/-- The components that pieces read from the root normalize to. -/
def normalize (pieces : List String) : List String := pieces.foldl normalStep []

theorem normalStep_of_isComponentName (kept : List String) {c : String}
    (h : isComponentName c = true) : normalStep kept c = kept ++ [c] := by
  simp only [isComponentName, Bool.and_eq_true, bne_iff_ne, ne_eq] at h
  simp [normalStep, h.1.1.1, h.1.1.2, h.1.2]

/-- Components read onto components are appended. -/
theorem foldl_normalStep_of_components (kept : List String) {l : List String}
    (h : ∀ c ∈ l, isComponentName c = true) : l.foldl normalStep kept = kept ++ l := by
  induction l generalizing kept with
  | nil => simp
  | cons c rest ih =>
    simp only [List.mem_cons, forall_eq_or_imp] at h
    rw [List.foldl_cons, normalStep_of_isComponentName _ h.1, ih _ h.2]
    simp

/-- A piece without a slash is a component name unless it is empty, `.` or `..`. -/
theorem isComponentName_iff_of_slash_free {piece : String} (h : '/' ∉ piece.toList) :
    isComponentName piece = true ↔ ¬ (piece = "" ∨ piece = ".") ∧ piece ≠ ".." := by
  simp only [isComponentName, Bool.and_eq_true, bne_iff_ne, ne_eq, Bool.not_eq_eq_eq_not,
    Bool.not_true]
  have : piece.contains '/' = false := by simpa using h
  simp [this, and_assoc]

/-- The stack `push` works on, nearest component first, is the reading reversed. -/
theorem push_reverse (kept : List String) {piece : String} (h : '/' ∉ piece.toList) :
    push kept.reverse piece = (normalStep kept piece).reverse := by
  have hc := isComponentName_iff_of_slash_free h
  unfold push normalStep
  by_cases h1 : piece = "" ∨ piece = "."
  · have hdot : piece ≠ ".." := by rcases h1 with rfl | rfl <;> decide
    have hn : isComponentName piece = false := by simpa [h1] using hc
    simp [h1, hdot, hn]
  · by_cases h2 : piece = ".."
    · simp [h2, List.tail_reverse]
    · simp [h1, h2, hc.2 ⟨h1, h2⟩]

theorem pushAll_reverse (kept : List String) {pieces : List String}
    (h : ∀ piece ∈ pieces, '/' ∉ piece.toList) :
    (pushAll kept.reverse pieces).reverse = pieces.foldl normalStep kept := by
  induction pieces generalizing kept with
  | nil => simp [pushAll]
  | cons piece rest ih =>
    simp only [List.mem_cons, forall_eq_or_imp] at h
    simp only [pushAll, List.foldl_cons] at ih ⊢
    rw [push_reverse kept h.1, ih _ h.2]

theorem descend_parts (base : Path) {pieces : List String}
    (h : ∀ piece ∈ pieces, '/' ∉ piece.toList) :
    (descend base pieces).parts = pieces.foldl normalStep base.parts :=
  pushAll_reverse base.parts h

/-- No piece of a split holds the character split on. -/
theorem not_mem_of_mem_splitOn {c : Char} :
    ∀ {t w : List Char}, w ∈ t.splitOn c → c ∉ w
  | [], w, hw => by
    rw [List.splitOn_nil, List.mem_singleton] at hw
    subst hw
    exact List.not_mem_nil
  | x :: xs, w, hw => by
    rw [List.splitOn_cons_eq_if_modifyHead] at hw
    split at hw
    · rcases List.mem_cons.1 hw with rfl | hw
      · exact List.not_mem_nil
      · exact not_mem_of_mem_splitOn hw
    · rename_i hx
      obtain ⟨r, rs, hr⟩ := List.exists_cons_of_ne_nil (List.splitOn_ne_nil c xs)
      rw [hr, List.modifyHead_cons] at hw
      rcases List.mem_cons.1 hw with rfl | hw
      · intro hc
        rcases List.mem_cons.1 hc with rfl | hc
        · exact hx (by simp)
        · exact not_mem_of_mem_splitOn (hr ▸ List.mem_cons_self) hc
      · exact not_mem_of_mem_splitOn (hr ▸ List.mem_cons_of_mem _ hw)

theorem segments_eq_split (s : String) : segments s = (s.split '/').toList.map (·.copy) := by
  simp [segments, String.toList_split_char]

theorem slash_free_of_mem_segments {s piece : String} (h : piece ∈ segments s) :
    '/' ∉ piece.toList := by
  obtain ⟨w, hw, rfl⟩ := List.mem_map.1 h
  rw [String.toList_ofList]
  exact not_mem_of_mem_splitOn hw

/-- Reading a text is normalizing the pieces between its slashes. -/
theorem ofString_parts (s : String) :
    (ofString s).parts = normalize ((s.split '/').toList.map (·.copy)) := by
  rw [ofString, descend_parts root (fun _ h => slash_free_of_mem_segments h), segments_eq_split]
  rfl

/-- Joining reads the pieces of the name onto the path's components. -/
theorem join_parts_normalize (p : Path) (n : String) :
    (p.join n).parts = normalize (p.parts ++ (n.split '/').toList.map (·.copy)) := by
  rw [join, descend_parts p (fun _ h => slash_free_of_mem_segments h), normalize,
    List.foldl_append, foldl_normalStep_of_components [] p.valid, segments_eq_split]
  rfl

/-! ### Writing a path back -/

theorem slash_free_of_mem_parts (p : Path) {c : String} (h : c ∈ p.parts) : '/' ∉ c.toList := by
  have := p.valid c h
  simp only [isComponentName, Bool.and_eq_true, Bool.not_eq_eq_eq_not, Bool.not_true] at this
  simpa using this.2

theorem segments_asStr (p : Path) : segments p.asStr = if p.parts = [] then [""] else p.parts := by
  rw [segments_eq_split, asStr, show "/" = String.singleton '/' from rfl]
  exact String.toList_split_intercalate fun _ h => slash_free_of_mem_parts p h

/-- A leading slash splits off an empty piece. -/
theorem segments_slash_append (t : String) : segments ("/" ++ t) = "" :: segments t := by
  have h := List.splitOn_append_cons_self (a := '/') [] t.toList
  rw [List.nil_append, List.splitOn_nil] at h
  simp only [segments, String.toList_append, show "/".toList = ['/'] from rfl,
    List.singleton_append, h]
  rfl

theorem ofString_asStr (p : Path) : ofString p.asStr = p := by
  apply ext_parts
  rw [ofString, descend_parts root (fun _ h => slash_free_of_mem_segments h), segments_asStr]
  split
  · rename_i h
    simp [h, normalStep]
  · exact foldl_normalStep_of_components [] p.valid

theorem ofString_display (p : Path) : ofString p.display = p := by
  apply ext_parts
  have h := congrArg parts (ofString_asStr p)
  rw [ofString, descend_parts root (fun _ h => slash_free_of_mem_segments h)] at h ⊢
  rw [display, segments_slash_append, List.foldl_cons, ← h]
  simp [normalStep]

/-- The absolute text of a path determines it. -/
theorem display_inj {p q : Path} : p.display = q.display ↔ p = q :=
  ⟨fun h => by rw [← ofString_display p, h, ofString_display], congrArg display⟩

end Path

namespace Hex

theorem value?_digit : ∀ n : Fin 16, value? (digit n) = some n.val := by decide

theorem digit_ne_plus : ∀ n : Fin 16, digit n ≠ '+' := by decide

/-- The two digits written for a byte read back as the byte's value. -/
theorem pairValue?_digits (b : UInt8) :
    pairValue? (digit (b.toNat / 16)) (digit (b.toNat % 16)) = some b.toNat := by
  have hhi : b.toNat / 16 < 16 := by have := b.toNat_lt; omega
  have hlo : b.toNat % 16 < 16 := Nat.mod_lt _ (by decide)
  have hv := value?_digit ⟨_, hhi⟩
  have hw := value?_digit ⟨_, hlo⟩
  have hp := digit_ne_plus ⟨_, hhi⟩
  unfold pairValue?
  split
  · exact absurd ‹_› hp
  · simp only at hv hw
    simp [hv, hw]
    omega

theorem decodeChars_flatMap_ofByte (bytes : List UInt8) :
    decodeChars (bytes.flatMap ofByte) = some bytes := by
  induction bytes with
  | nil => rfl
  | cons b rest ih =>
    rw [List.flatMap_cons, ofByte, List.cons_append, List.cons_append, List.nil_append,
      decodeChars, pairValue?_digits, ih]
    simp

theorem decode?_encode (bytes : List UInt8) : decode? (encode bytes) = some bytes := by
  rw [decode?, encode, String.toList_ofList, decodeChars_flatMap_ofByte]

theorem encode_inj {a b : List UInt8} : encode a = encode b ↔ a = b :=
  ⟨fun h => Option.some.inj ((decode?_encode a).symm.trans (h ▸ decode?_encode b)),
    congrArg encode⟩

end Hex

namespace ContentCache

/-- Two paths share a blob name exactly when they are one path, or when their absolute texts
differ and MD5 gives them one digest. -/
theorem key_eq_iff (p q : Path) :
    key p = key q ↔ p = q ∨ (p.display ≠ q.display ∧
      Md5.digest p.display.toUTF8.toList = Md5.digest q.display.toUTF8.toList) := by
  rw [key, key, Hex.encode_inj]
  constructor
  · intro h
    by_cases hpq : p = q
    · exact Or.inl hpq
    · exact Or.inr ⟨fun hd => hpq (Path.display_inj.1 hd), h⟩
  · rintro (rfl | ⟨-, h⟩)
    · rfl
    · exact h

end ContentCache

namespace Path

/-- Reading a text normalizes its pieces, and a path's text and absolute text read back as the
path: reading is idempotent, the absolute text determines the path, and two paths share a
content-cache key only when MD5 collides on their texts. -/
theorem text_round_trip (s : String) :
    (ofString s).parts = normalize ((s.split '/').toList.map (·.copy)) ∧
    (ofString s).asStr = "/".intercalate (normalize ((s.split '/').toList.map (·.copy))) ∧
    (ofString s).display = "/" ++ "/".intercalate (normalize ((s.split '/').toList.map (·.copy))) ∧
    ofString (ofString s).asStr = ofString s ∧
    (∀ p : Path, ofString p.display = p) ∧
    (∀ p q : Path, p.display = q.display ↔ p = q) ∧
    (∀ p q : Path, ContentCache.key p = ContentCache.key q ↔ p = q ∨ (p.display ≠ q.display ∧
      Md5.digest p.display.toUTF8.toList = Md5.digest q.display.toUTF8.toList)) := by
  have hparts := ofString_parts s
  refine ⟨hparts, ?_, ?_, ofString_asStr _, ofString_display, fun _ _ => display_inj,
    ContentCache.key_eq_iff⟩
  · rw [asStr, hparts]
  · rw [display, asStr, hparts]

/-! ### Joining and splitting -/

/-- A text without a slash is one piece. -/
theorem segments_of_slash_free {n : String} (h : '/' ∉ n.toList) : segments n = [n] := by
  simp [segments, List.splitOn_eq_singleton h, String.ofList_toList]

/-- The empty text joins as nothing. -/
theorem join_empty (p : Path) : p.join "" = p := by
  apply ext_parts
  rw [join, descend_parts p (fun _ h => slash_free_of_mem_segments h),
    segments_of_slash_free (by simp)]
  simp [normalStep]

/-- `..` joins as the enclosing folder. -/
theorem join_dotdot {p d : Path} (h : p.parent? = some d) : p.join ".." = d := by
  obtain ⟨n, hn⟩ := parent?_eq_some_iff.1 h
  apply ext_parts
  rw [join, descend_parts p (fun _ h => slash_free_of_mem_segments h),
    segments_of_slash_free (by decide)]
  simp [normalStep, hn]

/-- Joining a text onto a path normalizes the path's components followed by the pieces of the
text, so `..` climbs and the empty text changes nothing. A joined name comes back off by
`split?` exactly when it is a single component; every path but the root splits into a folder
and a component name that join back to it, one component shorter. -/
theorem join_split_laws :
    (∀ (p : Path) (n : String),
      (p.join n).parts = normalize (p.parts ++ (n.split '/').toList.map (·.copy))) ∧
    (∀ p : Path, p.join "" = p) ∧
    (∀ p d : Path, p.parent? = some d → p.join ".." = d) ∧
    (∀ (p : Path) (n : String), (p.join n).split? = some (p, n) ↔ isComponentName n = true) ∧
    (∀ q : Path, q ≠ root → ∃ a m, q.split? = some (a, m) ∧ isComponentName m = true ∧
      a.join m = q ∧ a.count + 1 = q.count) := by
  refine ⟨join_parts_normalize, join_empty, fun _ _ h => join_dotdot h,
    fun p _ => ⟨isComponentName_of_split?, split?_join p⟩, fun q hq => ?_⟩
  obtain ⟨a, m, hs⟩ := Store.exists_split?_of_ne_root hq
  exact ⟨a, m, hs, isComponentName_of_split? hs, join_of_split? hs,
    count_parent? (parent?_of_split? hs)⟩

/-- `/a/b` splits into `/a` and `b`, and `..` climbs from it to `/a`. -/
theorem join_split_of_nested :
    let q := (root.join "a").join "b"
    q ≠ root ∧ q.parent? = some (root.join "a") ∧ q.join ".." = root.join "a" ∧
      ∃ a m, q.split? = some (a, m) ∧ isComponentName m = true ∧ a.join m = q ∧
        a.count + 1 = q.count := by
  intro q
  have hb : isComponentName "b" = true := by cbv
  have hne : q ≠ root := Store.ne_root_of_isBelow (Store.isBelow_of_split? (split?_join _ hb))
  have hpar : q.parent? = some (root.join "a") := parent?_join _ hb
  exact ⟨hne, hpar, join_split_laws.2.2.1 q _ hpar, join_split_laws.2.2.2.2 q hne⟩

end Path

end FrontCache
