import HamZaboon.Library.LineStore
import HamZaboon.Texts.Unicode

/-! # Decoded values as texts

What `str(value or "").strip()` makes of a value that `json` has read, and the
other way round the value of a text.  `str` of a list or an object is a parameter.
-/

namespace HamZaboon
open Library

/-- The text of code points.  Half of a surrogate pair has no character; no text that
was written to a file has one. -/
def pointsText (text : List Nat) : String :=
  String.ofList (text.map fun n => if n.isValidChar then Char.ofNat n else '\uFFFD')

def textTree (s : String) : JsonTree := .str (points s)

/-- `value.get(key)`, where the value is an object. -/
def treeGet (value : JsonTree) (key : String) : JsonTree :=
  match value with
  | .obj entries => (entries.lookup (points key)).getD .null
  | _ => .null

/-- `bool(value)`; a float is zero where `repr` writes it so. -/
def treeTruthy : JsonTree → Bool
  | .null => false
  | .bool value => value
  | .int n => n ≠ 0
  | .float literal => literal ≠ "0.0".toList ∧ literal ≠ "-0.0".toList
  | .str text => text ≠ []
  | .arr items => !items.isEmpty
  | .obj entries => !entries.isEmpty

/-- `isinstance(value, dict)`. -/
def isObject : JsonTree → Bool
  | .obj _ => true
  | _ => false

section Clean
variable (py : PyText) (display : JsonTree → String)

/-- `str(value)`. -/
def treeStr : JsonTree → String
  | .null => "None"
  | .bool value => if value then "True" else "False"
  | .int n => String.ofList (dumpInt n)
  | .float literal => String.ofList literal
  | .str text => pointsText text
  | value => display value

/-- `str(value or "").strip()`. -/
def cleanTree (value : JsonTree) : String :=
  py.strip (if treeTruthy value then treeStr display value else "")

end Clean

@[simp] theorem pointsText_points (s : String) : pointsText (points s) = s := by
  have hmap : s.toList.map ((fun n => if n.isValidChar then Char.ofNat n else '\uFFFD') ∘ Char.toNat) =
      s.toList := by
    refine (List.map_congr_left fun c _ => ?_).trans (List.map_id _)
    have hvalid : c.toNat.isValidChar := c.valid
    rw [Function.comp_apply, if_pos hvalid]
    exact Char.ofNat_toNat c
  rw [pointsText, points, List.map_map, hmap, String.ofList_toList]

theorem isText_points (s : String) : isText (points s) = true := by
  rw [isText, List.all_eq_true]
  intro n hn
  obtain ⟨c, -, rfl⟩ := List.mem_map.mp hn
  exact decide_eq_true c.valid

theorem points_injective : Function.Injective points := fun s t h => by
  rw [← pointsText_points s, h, pointsText_points]

@[simp] theorem points_inj {s t : String} : points s = points t ↔ s = t :=
  points_injective.eq_iff

theorem points_eq_nil {s : String} : points s = [] ↔ s = "" := by
  rw [← points_inj]
  rfl

@[simp] theorem cleanTree_textTree {py : PyText} {display : JsonTree → String} (s : String) :
    cleanTree py display (textTree s) = py.strip s := by
  by_cases hs : s = ""
  · subst hs
    rfl
  · have htruthy : treeTruthy (textTree s) = true := by
      simp [treeTruthy, textTree, points_eq_nil, hs]
    rw [cleanTree, if_pos htruthy, textTree, treeStr, pointsText_points]

/-! ## Texts that end no line -/

theorem unbroken_splitlines_iff {value : JsonTree} :
    Unbroken .splitlines value ↔ ∀ n ∈ textPoints value, n ∉ [0x85, 0x2028, 0x2029] := by
  simp only [Unbroken, LineEnds.splitlines, decide_eq_false_iff_not, List.mem_cons, List.not_mem_nil,
    or_false]
  constructor
  · rintro h n hn (rfl | rfl | rfl)
    · exact h (Char.ofNat 0x85) (by decide) hn (by decide)
    · exact h (Char.ofNat 0x2028) (by decide) hn (by decide)
    · exact h (Char.ofNat 0x2029) (by decide) hn (by decide)
  · intro h c hlarge hc hend
    exact h c.toNat hc (by omega)

/-- No character of the text ends a line beyond ASCII. -/
def keepsLine (s : String) : Bool := s.toList.all fun c => c.toNat ∉ [0x85, 0x2028, 0x2029]

theorem unbroken_points {s : String} :
    Unbroken .splitlines (.str (points s)) ↔ keepsLine s = true := by
  rw [unbroken_splitlines_iff, textPoints, points, List.forall_mem_map, keepsLine, List.all_eq_true]
  simp only [decide_eq_true_eq]

theorem unbroken_textTree {s : String} : Unbroken .splitlines (textTree s) ↔ keepsLine s = true :=
  unbroken_points

end HamZaboon
