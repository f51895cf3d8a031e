import HtmlTemplate.Builtin.Group
import HtmlTemplate.Proofs.Data.Integers
import HtmlTemplate.Proofs.Text.Bytes
import HtmlTemplate.Script.Operators

/-! Slices of texts and of arrays, and the places that searches answer with. Both count
characters: a slice never reaches out of a text, the two slices at one integer are the whole
text, and a search answers with the first integer at which a slice begins with the part. -/
namespace HtmlTemplate

/-- The boundary among some places that an integer stands for: the nearest one, counted from
the end if the integer is negative. -/
def boundaryAt (length : Nat) (i : Int) : Nat :=
  (max 0 (min (length : Int) (if i < 0 then length + i else i))).toNat

section

variable {α : Type} {length default : Nat} {v w : Data} {i j : Int} {items : List α}

theorem Position.clamp_le (p : Position) (length : Nat) : p.clamp length ≤ length := by
  cases p with
  | before => exact Nat.zero_le _
  | «at» n => exact Nat.min_le_right _ _
  | behind => exact Nat.le_refl _

theorem Position.relativeClamp_le (p : Position) (length : Nat) :
    p.relativeClamp length ≤ length := by
  unfold relativeClamp
  split <;> exact clamp_le _ _

theorem boundary_le (h : default ≤ length) (v : Data) : boundary length default v ≤ length := by
  unfold boundary
  split
  · exact h
  · exact Position.relativeClamp_le _ _

theorem Data.IsInteger.boundary_eq (h : v.IsInteger i) (length default : Nat) :
    boundary length default v = boundaryAt length i := by
  have hBoundary : boundary length default v = (Position.ofData v).relativeClamp length := by
    cases h <;> rfl
  rw [hBoundary, h.position]
  simp only [Position.relativeClamp, Position.clamp, boundaryAt]
  omega

/-- A slice is what stands between two boundaries in order. -/
theorem sliceOf_eq_extract (items : List α) (start stop : Data) :
    sliceOf items start stop =
      let first := boundary items.length 0 start
      let last := boundary items.length items.length stop
      items.extract first (max first last) := by
  simp only [sliceOf, List.extract, List.drop_take]
  congr 1
  omega

theorem sliceOf_zero (h : v.IsInteger i) (items : List α) :
    sliceOf items (.ofInt 0) v = items.take (boundaryAt items.length i) := by
  have hZero : boundary items.length 0 (.ofInt 0) = 0 := by
    rw [(Data.IsInteger.int 0).boundary_eq]
    unfold boundaryAt
    omega
  rw [sliceOf, hZero, h.boundary_eq, List.drop_zero]

theorem sliceOf_null (h : v.IsInteger i) (items : List α) :
    sliceOf items v .null = items.drop (boundaryAt items.length i) := by
  rw [sliceOf, h.boundary_eq, boundary, List.take_length]

theorem sliceOf_natCast (items : List α) (k : Nat) :
    sliceOf items (.ofInt k) .null = items.drop k := by
  have hPlace : boundaryAt items.length k = min items.length k := by
    unfold boundaryAt
    omega
  rw [sliceOf_null (.int k), hPlace]
  rcases Nat.le_total k items.length with hInside | hBehind
  · rw [Nat.min_eq_right hInside]
  · rw [Nat.min_eq_left hBehind, List.drop_length, List.drop_eq_nil_of_le hBehind]

/-- What a function of slices answers with for two numbers: every slice is in range, the one
between two boundaries is what stands there, and the two at one number are the whole. -/
structure Slices (items : List α) (slice : List Data → List α → Prop) (v w : Data)
    (i j : Int) : Prop where
  inRange : ∀ args,
    let first := boundary items.length 0 (argument args 0)
    let last := max first (boundary items.length items.length (argument args 1))
    last ≤ items.length ∧ slice args (items.extract first last)
  between : slice [v, w] (items.extract (boundaryAt items.length i)
    (max (boundaryAt items.length i) (boundaryAt items.length j)))
  whole : ∃ front behind, slice [.ofInt 0, v] front ∧ slice [v] behind ∧ front ++ behind = items

theorem slices_of_sliceOf {slice : List Data → List α → Prop} (hv : v.IsInteger i)
    (hw : w.IsInteger j)
    (h : ∀ args, slice args (sliceOf items (argument args 0) (argument args 1))) :
    Slices items slice v w i j := by
  constructor
  · intro args first last
    refine ⟨Nat.max_le.mpr ⟨boundary_le (Nat.zero_le _) _, boundary_le (Nat.le_refl _) _⟩, ?_⟩
    have hSlice := h args
    rwa [sliceOf_eq_extract] at hSlice
  · have hSlice := sliceOf_eq_extract items v w
    dsimp only at hSlice
    rw [hv.boundary_eq, hw.boundary_eq] at hSlice
    exact hSlice ▸ h [v, w]
  · refine ⟨_, _, h [.ofInt 0, v], h [v], ?_⟩
    simp only [argument, List.getElem?_cons_zero, List.getElem?_cons_succ, List.getElem?_nil,
      Option.getD_some, Option.getD_none, sliceOf_zero hv, sliceOf_null hv,
      List.take_append_drop]

end

namespace Builtin.Text

/-- Whether a method of a text answers with a value. -/
def Gives (text name : String) (args : List Data) (value : Data) : Prop :=
  method? text name args = some (.ok value)

/-- Whether the slice of a text at a place begins with a part. -/
def BeginsAt (text part : String) (place : Nat) : Prop :=
  ∃ rest, Gives text "slice" [.ofInt place] (.string rest) ∧
    Gives rest "startsWith" [.string part] (.bool true)

/-- The boundary that an integer stands for where nothing is counted from the end. -/
def nearestBoundary (length : Nat) (i : Int) : Nat :=
  min i.toNat length

/-- Slices of a text at two numbers, of which `substring` does not mind the order. The
functions of the group slice as the methods do. -/
structure Sliced (text : String) (v w : Data) (i j : Int) : Prop where
  slices : Slices text.toList (fun args part => Gives text "slice" args (.ofChars part)) v w i j
  eitherOrder : ∃ part, Gives text "substring" [v, w] (.ofChars part) ∧
    Gives text "substring" [w, v] (.ofChars part) ∧ part <:+: text.toList ∧
    part = text.toList.extract
      (min (nearestBoundary text.length i) (nearestBoundary text.length j))
      (max (nearestBoundary text.length i) (nearestBoundary text.length j))
  inGroup : ∀ args, (find? functions "slice").map (·.run (.string text :: args)) =
      method? text "slice" args ∧
    (find? functions "subString").map (·.run (.string text :: args)) =
      method? text "substring" args

/-- Searches of a text for a part, counted in characters: what is found first, what is not
found, and that a search over the bytes comes to the same place. -/
structure Searched (text part : String) : Prop where
  found : ∀ k : Nat, Gives text "indexOf" [.string part] (.ofInt k) ↔
    BeginsAt text part k ∧ ∀ earlier < k, ¬ BeginsAt text part earlier
  missing : Gives text "indexOf" [.string part] (.ofInt (-1)) ↔
    Gives text "includes" [.string part] (.bool false)
  inBytes : ∀ k : Nat, Gives text "indexOf" [.string part] (.ofInt k) ↔ k ≤ text.length ∧
    Text.FirstAt (Text.bytes part.toList) (Text.bytes text.toList)
      (Text.bytes (text.toList.take k)).length

variable {text part : String} {v w : Data} {i j : Int}

theorem Gives.iff_eq {name : String} {args : List Data} {value other : Data}
    (h : Gives text name args value) : Gives text name args other ↔ value = other :=
  ⟨fun hOther => Except.ok.inj (Option.some.inj (h.symm.trans hOther)), fun hSame => hSame ▸ h⟩

/-- A call in an expression comes to the method, unless the text stands for a number. -/
theorem Gives.callMethod_eq {name : String} {args : List Data} {value : Data}
    (h : Gives text name args value) (hText : Data.isNonFinite text = false) :
    Script.callMethod (.string text) name args = .ok value := by
  have hMethod : method? text name args = some (.ok value) := h
  simp only [Script.callMethod, hText, Bool.false_eq_true, if_false, hMethod, Option.getD_some]

theorem gives_slice (text : String) (args : List Data) : Gives text "slice" args
    (.ofChars (sliceOf text.toList (argument args 0) (argument args 1))) := rfl

theorem gives_substring (text : String) (v w : Data) :
    Gives text "substring" [v, w] (substring text.toList v w) := rfl

theorem gives_startsWith (text part : String) : Gives text "startsWith" [.string part]
    (.bool (part.toList.isPrefixOf text.toList)) := rfl

theorem gives_indexOf (text part : String) : Gives text "indexOf" [.string part]
    (indexOf text.toList part.toList) := rfl

theorem gives_includes (text part : String) : Gives text "includes" [.string part]
    (.bool (Text.includes part.toList text.toList)) := rfl

theorem substringBoundary_eq (h : v.IsInteger i) (length default : Nat) :
    substringBoundary length default v = nearestBoundary length i := by
  have hBoundary : substringBoundary length default v = (Position.ofData v).clamp length := by
    cases h <;> rfl
  rw [hBoundary, h.position]
  rfl

theorem substring_eq (hv : v.IsInteger i) (hw : w.IsInteger j) (text : List Char) :
    substring text v w = .ofChars (text.extract
      (min (nearestBoundary text.length i) (nearestBoundary text.length j))
      (max (nearestBoundary text.length i) (nearestBoundary text.length j))) := by
  simp only [substring, substringBoundary_eq hv, substringBoundary_eq hw, List.extract,
    List.drop_take]

theorem extract_infix {α : Type} (items : List α) (first last : Nat) :
    items.extract first last <:+: items :=
  (List.take_prefix _ _).isInfix.trans (List.drop_suffix _ _).isInfix

theorem sliced (hv : v.IsInteger i) (hw : w.IsInteger j) (text : String) :
    Sliced text v w i j := by
  refine ⟨slices_of_sliceOf hv hw (gives_slice text), ?_, fun args => ⟨rfl, rfl⟩⟩
  have hOne := gives_substring text v w
  have hOther := gives_substring text w v
  rw [substring_eq hv hw] at hOne
  rw [substring_eq hw hv, Nat.min_comm, Nat.max_comm] at hOther
  exact ⟨_, hOne, hOther, extract_infix _ _ _, rfl⟩

theorem beginsAt_iff {place : Nat} :
    BeginsAt text part place ↔ part.toList <+: text.toList.drop place := by
  have hSlice : Gives text "slice" [.ofInt place] (.ofChars (text.toList.drop place)) := by
    rw [← sliceOf_natCast]
    exact gives_slice text [.ofInt place]
  have hStarts := gives_startsWith (String.ofList (text.toList.drop place)) part
  rw [String.toList_ofList] at hStarts
  constructor
  · rintro ⟨rest, hRest, hPart⟩
    obtain rfl := Data.string.inj (hSlice.iff_eq.mp hRest)
    exact List.isPrefixOf_iff_prefix.mp (Data.bool.inj (hStarts.iff_eq.mp hPart))
  · intro hPart
    rw [List.isPrefixOf_iff_prefix.mpr hPart] at hStarts
    exact ⟨_, hSlice, hStarts⟩

theorem indexOf_eq_natCast {text part : List Char} {k : Nat} :
    indexOf text part = .ofInt k ↔ Text.FirstAt part text k := by
  rw [← Text.find?_eq_some_iff, indexOf]
  cases Text.find? part text with
  | none => simp [Data.ofInt_inj]
  | some found => simp only [Data.ofInt_inj, Int.natCast_inj, Option.some.injEq]

theorem indexOf_eq_missing {text part : List Char} :
    indexOf text part = .ofInt (-1) ↔ Text.includes part text = false := by
  unfold indexOf Text.includes Text.find?
  cases Text.splitFirst? part text with
  | none => simp
  | some found => simp [Data.ofInt_inj]

theorem searched (text part : String) : Searched text part := by
  have hFirst (k : Nat) : Gives text "indexOf" [.string part] (.ofInt k) ↔
      Text.FirstAt part.toList text.toList k :=
    (gives_indexOf text part).iff_eq.trans indexOf_eq_natCast
  constructor
  · intro k
    simp only [hFirst, beginsAt_iff]
    exact ⟨fun h => ⟨h.here, h.first⟩, fun h => ⟨h.1, h.2⟩⟩
  · rw [(gives_indexOf text part).iff_eq, indexOf_eq_missing,
      (gives_includes text part).iff_eq, Data.bool.injEq]
  · intro k
    rw [hFirst]
    exact Text.firstAt_iff_bytes

/-- Slices and searches count the same characters. A slice of a text or of an array at any
arguments is in range, and the two slices at one integer are the whole; `substring` takes two
integers in either order; and a search answers with the first integer at which a slice begins
with the part, or that there is none. A call in an expression does as the method. -/
theorem slices_agree_with_searches (hv : v.IsInteger i) (hw : w.IsInteger j)
    (text part : String) (items : List Data) :
    Sliced text v w i j ∧ Searched text part ∧
      Slices items (fun args part =>
        Script.callMethod (.array items) "slice" args = .ok (.array part)) v w i j ∧
      (Data.isNonFinite text = false → ∀ name args value, Gives text name args value →
        Script.callMethod (.string text) name args = .ok value) :=
  ⟨sliced hv hw text, searched text part, slices_of_sliceOf hv hw fun _ => rfl,
    fun hText _ _ _ h => h.callMethod_eq hText⟩

theorem slices_agree_with_searches_of_accented :
    Data.IsInteger (.ofInt (-2)) (-2) ∧ Data.IsInteger (.ofInt 3) 3 ∧
      Sliced "héllo😀" (.ofInt (-2)) (.ofInt 3) (-2) 3 ∧ Searched "héllo😀" "l" :=
  have h := slices_agree_with_searches (.int (-2)) (.int 3) "héllo😀" "l" []
  ⟨.int (-2), .int 3, h.1, h.2.1⟩

end Builtin.Text

end HtmlTemplate
