/-
# Pure paths

`pathlib` on POSIX texts: parsing drops empty components and dots and keeps `..`, and joining
an absolute path replaces what stands before it.  A component carries the proof that it is
one.  A resolved path is absolute and free of links, so it is the list of its components, and
containment of resolved paths is being a prefix.
-/
import IngestFarm.Etr290Tags

namespace Paths

open Etr290 (Text fields)

/-- One component of a path. -/
structure Component where
  name : Text
  nonempty : name ≠ []
  noSlash : '/' ∉ name
  notDot : name ≠ ['.']
  deriving DecidableEq

/-- A pure path. -/
structure PurePath where
  absolute : Bool
  parts : List Component
  deriving DecidableEq

/-- A path without links and `..`, as `Path.resolve` returns it. -/
abbrev RealPath := List Component

/-- Parents are looked up by their components. -/
instance : LawfulBEq RealPath := inferInstance

/-- A component, unless the text is empty or a dot. -/
def component (t : Text) : Option Component :=
  if h : t ≠ [] ∧ '/' ∉ t ∧ t ≠ ['.'] then some ⟨t, h.1, h.2.1, h.2.2⟩ else none

namespace PurePath

/-- `Path(text)`: empty components and single dots are dropped, two dots are kept. -/
def ofText (t : Text) : PurePath := ⟨t.head? = some '/', (fields '/' t).filterMap component⟩

/-- `a / b`: an absolute path on the right wins. -/
def join (a b : PurePath) : PurePath := if b.absolute then b else ⟨a.absolute, a.parts ++ b.parts⟩

/-- `path.parent`, which is the path itself at the root. -/
def parent (p : PurePath) : PurePath := { p with parts := p.parts.dropLast }

/-- A resolved path as a pure one. -/
def ofReal (p : RealPath) : PurePath := ⟨true, p⟩

end PurePath

namespace RealPath

/-- `path.parents`: the proper prefixes, the nearest first. -/
def parents (p : RealPath) : List RealPath :=
  (List.range p.length).reverse.map fun n => p.take n

/-- `root == target or root in target.parents`, the test of every guard on paths. -/
def isUnder (root target : RealPath) : Bool := root = target || root ∈ parents target

/-- `str(path)`: what is stored in a row and read back from it. -/
def text (p : RealPath) : Text := if p = [] then ['/'] else p.flatMap fun c => '/' :: c.name

/-- `path.suffix`: from the last dot, unless that is the first or the last character. -/
def suffix (p : RealPath) : Text :=
  match p.getLast? with
  | none => []
  | some c =>
    match Etr290.rcut '.' c.name with
    | (_, none) => []
    | (stem, some ext) => if stem ≠ [] ∧ ext ≠ [] then '.' :: ext else []

end RealPath

/-! ## Containment -/

/-- **Containment is being a prefix.** -/
theorem isUnder_iff {root target : RealPath} :
    RealPath.isUnder root target = true ↔ root <+: target := by
  unfold RealPath.isUnder RealPath.parents
  rw [Bool.or_eq_true, decide_eq_true_eq, decide_eq_true_eq, List.mem_map]
  constructor
  · rintro (rfl | ⟨n, -, rfl⟩)
    · exact List.prefix_refl _
    · exact List.take_prefix ..
  · intro h
    by_cases hlen : root.length = target.length
    · exact Or.inl (h.eq_of_length hlen)
    · have hle := h.length_le
      refine Or.inr ⟨root.length, ?_, (List.prefix_iff_eq_take.mp h).symm⟩
      rw [List.mem_reverse, List.mem_range]
      omega

/-! ## Parsing what is printed -/

theorem component_name (c : Component) : component c.name = some c := by
  unfold component
  rw [dif_pos ⟨c.nonempty, c.noSlash, c.notDot⟩]

/-- The components of a text with a slash before each. -/
theorem fields_flatMap (p : List Component) :
    (fields '/' (p.flatMap fun c => '/' :: c.name)).filterMap component = p := by
  induction p using List.reverseRecOn with
  | nil =>
    show [component []].reduceOption = _
    simp [component]
  | append_singleton p c ih =>
    have hone : fields '/' c.name = [c.name] := Etr290.fields_of_not_mem c.noSlash
    rw [List.flatMap_append, List.flatMap_singleton, Etr290.fields_append, hone,
      List.filterMap_append, ih]
    simp [component_name]

/-- **A resolved path is read back from its text.** -/
theorem ofText_text (p : RealPath) : PurePath.ofText (RealPath.text p) = PurePath.ofReal p := by
  unfold PurePath.ofText PurePath.ofReal RealPath.text
  cases p with
  | nil => rfl
  | cons c cs =>
    rw [if_neg (by simp), fields_flatMap]
    simp

end Paths
