/-!
Paths of the cached file tree. A path is the list of its components from the root
down; every component is a name that can stand alone (`isComponentName`), so two
paths are the same place exactly when their component lists agree.

Text is read by splitting on `/` and folding one step per segment over a stack of
the components gathered so far: a name is pushed, `..` pops (never above the
root), and empty segments and `.` are skipped. Joining a name onto a path is the
same fold started from that path's components, so `..` in the joined text climbs.
-/
namespace FrontCache

/-- A name is one component when it is not empty, not `.` or `..`, and holds no `/`. -/
def isComponentName (n : String) : Bool :=
  n != "" && n != "." && n != ".." && !n.contains '/'

/-- Names that desktop systems leave beside files: resource forks (`._x`) and
folder metadata (`.DS_Store`, `.localized`, `.hidden`). -/
def isSidecarName (n : String) : Bool :=
  n.startsWith "._" || n == ".DS_Store" || n == ".localized" || n == ".hidden"

/-- A normalized path: its components from the root down, each a component name. -/
structure Path where
  parts : List String
  valid : ∀ c ∈ parts, isComponentName c = true

namespace Path

instance : DecidableEq Path := fun a b =>
  if h : a.parts = b.parts then
    isTrue (by cases a; cases b; cases h; rfl)
  else
    isFalse (fun e => h (e ▸ rfl))

theorem ext_parts {a b : Path} (h : a.parts = b.parts) : a = b := by
  cases a; cases b; cases h; rfl

/-- The root has no components. -/
def root : Path := ⟨[], by simp⟩

/-- One segment applied to the components gathered so far, nearest first. -/
def push (stack : List String) (seg : String) : List String :=
  if seg = ".." then stack.tail
  else if isComponentName seg then seg :: stack
  else stack

theorem push_valid (stack : List String) (seg : String)
    (h : ∀ c ∈ stack, isComponentName c = true) :
    ∀ c ∈ push stack seg, isComponentName c = true := by
  intro c hc
  unfold push at hc
  split at hc
  · exact h c (List.mem_of_mem_tail hc)
  · split at hc
    · rcases List.mem_cons.1 hc with rfl | hc
      · assumption
      · exact h c hc
    · exact h c hc

/-- Segments folded onto a stack, nearest component first. -/
def pushAll (stack : List String) (segs : List String) : List String :=
  segs.foldl push stack

theorem pushAll_valid (stack segs : List String)
    (h : ∀ c ∈ stack, isComponentName c = true) :
    ∀ c ∈ pushAll stack segs, isComponentName c = true := by
  induction segs generalizing stack with
  | nil => simpa [pushAll] using h
  | cons s rest ih => exact ih (push stack s) (push_valid stack s h)

/-- The segments of a text: its pieces between slashes. -/
def segments (s : String) : List String := (s.toList.splitOn '/').map String.ofList

/-- Segments applied below `base`. -/
def descend (base : Path) (segs : List String) : Path :=
  ⟨(pushAll base.parts.reverse segs).reverse, by
    intro c hc
    exact pushAll_valid _ segs (fun c h => base.valid c (List.mem_reverse.1 h)) c
      (List.mem_reverse.1 hc)⟩

/-- Reads a path text; leading slashes make no difference. -/
def ofString (s : String) : Path := descend root (segments s)

/-- The path reached from `p` by the relative text `name`; `..` climbs. -/
def join (p : Path) (name : String) : Path := descend p (segments name)

def isRoot (p : Path) : Bool := p.parts.isEmpty

/-- Components joined by `/`, without a leading slash; empty for the root. -/
def asStr (p : Path) : String := "/".intercalate p.parts

/-- The absolute text `/a/b`; the root is `/`. -/
def display (p : Path) : String := "/" ++ p.asStr

def count (p : Path) : Nat := p.parts.length

/-- The enclosing folder; the root has none. -/
def parent? (p : Path) : Option Path :=
  if p.parts.isEmpty then none
  else some ⟨p.parts.dropLast, fun c h => p.valid c ((List.dropLast_prefix _).subset h)⟩

/-- The last component; the root has none. -/
def fileName? (p : Path) : Option String := p.parts.getLast?

/-- Enclosing folder and last component together. -/
def split? (p : Path) : Option (Path × String) :=
  match p.parent?, p.fileName? with
  | some q, some n => some (q, n)
  | _, _ => none

/-- `p` lies strictly below `a`: `a`'s components are a proper prefix of `p`'s. -/
def isBelow (p a : Path) : Bool := p != a && a.parts.isPrefixOf p.parts

/-- The last component is a sidecar name. -/
def isSidecar (p : Path) : Bool :=
  match p.fileName? with
  | some n => isSidecarName n
  | none => false

/-- `p` moved from under `src` to under `dst`: the components after `src`'s are
put after `dst`'s. -/
def reroot (p src dst : Path) : Path :=
  ⟨dst.parts ++ p.parts.drop src.parts.length, by
    intro c hc
    rcases List.mem_append.1 hc with h | h
    · exact dst.valid c h
    · exact p.valid c (List.mem_of_mem_drop h)⟩

@[simp] theorem root_parts : root.parts = [] := rfl

/-- The enclosing folder has one component fewer. -/
theorem count_parent? {p q : Path} (h : p.parent? = some q) : q.count + 1 = p.count := by
  unfold parent? at h
  split at h
  · cases h
  · cases h
    rename_i hne
    have : p.parts ≠ [] := fun e => hne (by simp [e])
    simp only [count, List.length_dropLast]
    have := List.length_pos_iff.2 this
    omega

theorem parent?_of_split? {p q : Path} {n : String} (h : p.split? = some (q, n)) :
    p.parent? = some q := by
  unfold split? at h
  split at h
  · cases h; assumption
  · cases h

theorem count_lt_of_split? {p q : Path} {n : String} (h : p.split? = some (q, n)) :
    q.count < p.count := by
  have := count_parent? (parent?_of_split? h)
  omega

end Path

end FrontCache
