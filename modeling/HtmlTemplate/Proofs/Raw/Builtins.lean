import HtmlTemplate.Builtin.Group
import HtmlTemplate.Proofs.Raw.Bags
import HtmlTemplate.Proofs.Result
import HtmlTemplate.Script.Locals
import HtmlTemplate.Script.Operators

/-! Functions, operators and methods on plain values. What they compute of plain values is
plain: none of them writes the character that names the raw data. -/
namespace HtmlTemplate

open Text (Plain)

/-- A function that gives plain values for plain arguments. -/
def Builtin.KeepsPlain (b : Builtin) : Prop :=
  ∀ args : List Data, (∀ v ∈ args, v.Plain) → ∀ v, b.run args = .ok v → v.Plain

theorem plain_argument {args : List Data} (h : ∀ v ∈ args, v.Plain) (i : Nat) :
    (argument args i).Plain :=
  Data.plain_getD fun v hFound => h v (List.mem_of_getElem? hFound)

theorem sliceOf_subset {α : Type} (items : List α) (start stop : Data) :
    sliceOf items start stop ⊆ items :=
  fun _ h => List.take_subset _ _ (List.drop_subset _ _ h)

namespace Builtin

theorem plain_total {name : String} {f : List Data → Data}
    (h : ∀ args : List Data, (∀ v ∈ args, v.Plain) → (f args).Plain) :
    (total name f).KeepsPlain := by
  intro args hArgs v hValue
  cases hValue
  exact h args hArgs

theorem plain_numeric (name : String) (f : Float → Float) : (numeric name f).KeepsPlain := by
  intro args _ v hValue
  cases hValue
  exact Data.plain_ofFloat _

namespace Text

open HtmlTemplate.Text

variable {text : List Char}

theorem plain_subject {args : List Data} (h : ∀ v ∈ args, v.Plain) : Plain (subject args) := by
  unfold subject
  split
  · exact plain_nil
  · exact Data.plain_display (plain_argument h 0)

theorem plain_charAt (h : Plain text) (position : Data) : (charAt text position).Plain := by
  unfold charAt
  split
  · exact Data.plain_ofChars.mpr ((h.drop _).take 1)
  · exact Data.plain_string.mpr (by decide)

theorem plain_charCodeAt (text : List Char) (position : Data) :
    (charCodeAt text position).Plain := by
  unfold charCodeAt
  split
  · split
    · exact Data.plain_ofInt _
    · exact Data.plain_string.mpr (by decide)
  · exact Data.plain_string.mpr (by decide)

theorem plain_relativeCharAt (h : Plain text) (position : Data) :
    (relativeCharAt text position).Plain := by
  unfold relativeCharAt
  split
  · exact Data.plain_ofChars.mpr ((h.drop _).take 1)
  · exact Data.plain_null

theorem plain_slice (h : Plain text) (start stop : Data) : (slice text start stop).Plain :=
  Data.plain_ofChars.mpr (h.subset (sliceOf_subset text start stop))

theorem plain_substring (h : Plain text) (start stop : Data) : (substring text start stop).Plain :=
  Data.plain_ofChars.mpr ((h.take _).drop _)

theorem plain_indexOf (text part : List Char) : (indexOf text part).Plain := by
  unfold indexOf
  split <;> exact Data.plain_ofInt _

theorem plain_repeated {text : String} {count v : Data} (h : Plain text.toList)
    (hValue : repeated text count = .ok v) : v.Plain := by
  unfold repeated at hValue
  split at hValue
  · cases hValue
  · cases hValue
  · split at hValue
    · cases hValue
    · split at hValue
      · cases hValue
        exact Data.plain_string.mpr (by decide)
      · split at hValue
        · cases hValue
        · cases hValue
          rw [Data.plain_string, toList_times, plain_flatten]
          intro t ht
          exact List.eq_of_mem_replicate ht ▸ h

theorem plain_replaced (all : Bool) (h : Plain text) (part : Data) {replacement : Data}
    (hReplacement : replacement.Plain) : (replaced all text part replacement).Plain := by
  have hWritten := Data.plain_display hReplacement
  unfold replaced
  dsimp only
  rw [Data.plain_ofChars]
  split
  · exact h.replaceAll _ hWritten
  · exact h.replaceFirst _ hWritten

theorem plain_split (h : Plain text) (separator : Data) : (split text separator).Plain := by
  unfold split
  split
  · simpa using h
  · split
    · rw [Data.plain_array]
      intro v hv
      obtain ⟨c, hc, rfl⟩ := List.mem_map.mp hv
      simpa using h.ne hc
    · rw [Data.plain_array]
      intro v hv
      obtain ⟨piece, hPiece, rfl⟩ := List.mem_map.mp hv
      exact Data.plain_ofChars.mpr (h.pieces piece hPiece)

theorem plain_joined {args : List Data} (h : ∀ v ∈ args, v.Plain) : Plain (joined args).toList := by
  unfold joined
  induction args with
  | nil => decide
  | cons v rest ih =>
      have hFirst := Data.plain_display (h v List.mem_cons_self)
      have hRest := ih fun w hw => h w (List.mem_cons_of_mem v hw)
      rw [List.map_cons, String.join_cons, String.toList_append, plain_append]
      exact ⟨hFirst, hRest⟩

/-- The methods of a plain text give plain values. -/
theorem plain_method {text name : String} {args : List Data} {v : Data} (h : Plain text.toList)
    (hArgs : ∀ v ∈ args, v.Plain) (hValue : method? text name args = some (.ok v)) : v.Plain := by
  have hFirst := plain_argument hArgs 0
  have hSecond := plain_argument hArgs 1
  have hOk {w : Data} (hw : w.Plain)
      (hSame : some (Except.ok (ε := EvalError) w) = some (.ok v)) : v.Plain := by
    cases hSame
    exact hw
  unfold method? at hValue
  dsimp only at hValue
  split at hValue
  · exact hOk (Data.plain_ofChars.mpr h.upper) hValue
  · exact hOk (Data.plain_ofChars.mpr h.lower) hValue
  · exact hOk (Data.plain_ofChars.mpr h.trim) hValue
  · exact hOk (Data.plain_ofChars.mpr h.trimStart) hValue
  · exact hOk (Data.plain_ofChars.mpr h.trimEnd) hValue
  · exact hOk (Data.plain_bool _) hValue
  · exact hOk (Data.plain_bool _) hValue
  · exact hOk (Data.plain_bool _) hValue
  · exact hOk (plain_indexOf _ _) hValue
  · exact hOk (plain_slice h _ _) hValue
  · exact hOk (plain_substring h _ _) hValue
  · exact hOk (plain_charAt h _) hValue
  · exact hOk (plain_charCodeAt _ _) hValue
  · exact hOk (plain_relativeCharAt h _) hValue
  · exact plain_repeated h (Option.some.inj hValue)
  · exact hOk (plain_replaced false h _ hSecond) hValue
  · exact hOk (plain_replaced true h _ hSecond) hValue
  · exact hOk (plain_split h _) hValue
  · refine hOk (Data.plain_string.mpr ?_) hValue
    rw [String.toList_append, plain_append]
    exact ⟨h, plain_joined hArgs⟩
  · exact hOk (Data.plain_string.mpr h) hValue
  · cases hValue

theorem plain_functions : ∀ b ∈ functions, b.KeepsPlain := by
  unfold functions
  simp only [List.forall_mem_cons, List.not_mem_nil, false_implies, implies_true, and_true]
  refine ⟨?_, ?_, ?_, ?_, ?_, ?_, ?_, ?_, ?_, ?_, ?_, ?_, ?_, ?_, ?_⟩
  · exact plain_total fun args h => Data.plain_ofInt _
  · exact plain_total fun args h => Data.plain_ofChars.mpr (plain_subject h).upper
  · exact plain_total fun args h => Data.plain_ofChars.mpr (plain_subject h).lower
  · exact plain_total fun args h => plain_charAt (plain_subject h) _
  · exact plain_total fun args h => plain_charCodeAt _ _
  · exact plain_total fun args h => plain_slice (plain_subject h) _ _
  · exact plain_total fun args h => plain_substring (plain_subject h) _ _
  · exact plain_total fun args h => Data.plain_string.mpr (plain_joined h)
  · exact plain_total fun args h => Data.plain_ofChars.mpr (plain_subject h).trim
  · exact plain_total fun args h => Data.plain_ofChars.mpr (plain_subject h).trimStart
  · exact plain_total fun args h => Data.plain_ofChars.mpr (plain_subject h).trimEnd
  · intro args h v hValue
    refine plain_repeated ?_ hValue
    rw [String.toList_ofList]
    exact plain_subject h
  · exact plain_total fun args h => plain_replaced false (plain_subject h) _ (plain_argument h 2)
  · exact plain_total fun args h => plain_replaced true (plain_subject h) _ (plain_argument h 2)
  · exact plain_total fun args h => plain_split (plain_subject h) _

end Text

namespace Number

theorem plain_fixedText (x : Float) (digits : Nat) : Plain (fixedText x digits).toList := by
  have hSign : Plain (if Double.compare? x 0 = some .lt then ['-'] else []) := by
    split <;> decide
  unfold fixedText
  dsimp only
  split
  · rw [String.toList_ofList, HtmlTemplate.Text.plain_append]
    exact ⟨hSign, plain_of_numeric (numeric_fixed _ _ _)⟩
  · exact plain_doubleText _

theorem plain_toFixed {args : List Data} {v : Data} (hValue : toFixed args = .ok v) : v.Plain := by
  unfold toFixed at hValue
  dsimp only at hValue
  split at hValue
  · split at hValue
    · split at hValue
      · cases hValue
        exact Data.plain_string.mpr (plain_fixedText _ _)
      · cases hValue
        exact Data.plain_string.mpr (plain_doubleText _)
    · cases hValue
  · cases hValue

theorem plain_toNumber (args : List Data) : (toNumber args).Plain := by
  unfold toNumber
  split
  · exact Data.plain_ofInt _
  · exact Data.plain_ofFloat _

theorem plain_functions : ∀ b ∈ functions, b.KeepsPlain := by
  unfold functions
  simp only [List.forall_mem_cons, List.not_mem_nil, false_implies, implies_true, and_true]
  refine ⟨?_, ?_, ?_, ?_, ?_, ?_⟩
  · exact fun args _ v hValue => plain_toFixed hValue
  · exact plain_total fun args _ => plain_toNumber args
  · exact plain_total fun args _ => Data.plain_ofFloat _
  · exact plain_total fun args _ => Data.plain_ofFloat _
  · exact plain_total fun args _ => Data.plain_bool _
  · exact plain_total fun args _ => Data.plain_bool _

end Number

namespace Math

theorem plain_extreme (wanted : Ordering) (start : Float) (args : List Data) :
    (extreme wanted start args).Plain :=
  Data.plain_ofFloat _

theorem plain_functions : ∀ b ∈ functions, b.KeepsPlain := by
  have hConstant (name : String) (x : Float) : (constant name x).KeepsPlain :=
    plain_total fun _ _ => Data.plain_ofFloat x
  have hPower : (total "pow" fun args =>
      .ofFloat (power (argument args 0).toNumber (argument args 1).toNumber)).KeepsPlain :=
    plain_total fun _ _ => Data.plain_ofFloat _
  unfold functions
  simp only [List.forall_mem_cons, List.not_mem_nil, false_implies, implies_true, and_true,
    hConstant, plain_numeric, hPower]

end Math

namespace Date

theorem plain_functions : ∀ b ∈ functions, b.KeepsPlain := by
  have hGetter (name : String) (get : Instant → Int) : (getter name get).KeepsPlain := by
    refine plain_total fun args _ => ?_
    split
    · exact Data.plain_ofInt _
    · exact Data.plain_string.mpr (by decide)
  have hNow : (total "getNow" fun _ => .ofInt 0).KeepsPlain :=
    plain_total fun _ _ => Data.plain_ofInt 0
  unfold functions
  simp only [List.forall_mem_cons, List.not_mem_nil, false_implies, implies_true, and_true,
    hGetter, hNow]

end Date

/-- The functions of all groups give plain values. -/
theorem plain_group {name : String} {group : List Builtin} (h : group? name = some group) :
    ∀ b ∈ group, b.KeepsPlain := by
  unfold group? at h
  split at h
  · cases h
    exact Text.plain_functions
  · cases h
    exact Number.plain_functions
  · cases h
    exact Math.plain_functions
  · cases h
    exact Date.plain_functions
  · cases h

end Builtin

namespace Script

theorem plain_binary (op : BinaryOp) {a b : Data} (ha : a.Plain) (hb : b.Plain) :
    (op.apply a b).Plain := by
  unfold BinaryOp.apply
  cases op with
  | add =>
      dsimp only
      split
      · rw [Data.plain_string, String.toList_append, Text.plain_append]
        exact ⟨Data.plain_display ha, Data.plain_display hb⟩
      · exact Data.plain_ofFloat _
  | sub | mul | div | mod => exact Data.plain_ofFloat _
  | eq | neq | strictEq | strictNeq | lt | gt | lte | gte => exact Data.plain_bool _
  | and | or | nullish =>
      dsimp only
      split <;> assumption

theorem plain_shortcut {op : BinaryOp} {a v : Data} (ha : a.Plain)
    (hValue : op.shortcut? a = some v) : v.Plain := by
  unfold BinaryOp.shortcut? at hValue
  split at hValue
  · split at hValue
    · cases hValue
    · cases hValue
      exact ha
  · split at hValue
    · cases hValue
      exact ha
    · cases hValue
  · split at hValue
    · cases hValue
    · cases hValue
      exact ha
  · cases hValue

theorem plain_unary (op : UnaryOp) (a : Data) : (op.apply a).Plain := by
  cases op with
  | not => exact Data.plain_bool _
  | neg | plus => exact Data.plain_ofFloat _
  | typeof => exact Data.plain_string.mpr (Data.plain_typeOf a)

theorem plain_getProperty {target : Data} (key : String) (h : target.Plain) :
    (getProperty target key).Plain := by
  unfold getProperty
  split
  · split
    · exact Data.plain_ofInt _
    · split
      · next c hChar =>
        obtain ⟨i, -, hMem⟩ := Option.bind_eq_some_iff.mp hChar
        simpa using (Data.plain_string.mp h).ne (List.mem_of_getElem? hMem)
      · exact Data.plain_null
  · split
    · exact Data.plain_ofInt _
    · refine Data.plain_getD fun v hFound => ?_
      obtain ⟨i, -, hMem⟩ := Option.bind_eq_some_iff.mp hFound
      exact Data.plain_array.mp h v (List.mem_of_getElem? hMem)
  · exact Data.plain_getD fun v hFound => (Data.plain_object.mp h _ (Bag.mem_of_get? hFound)).2
  · exact Data.plain_null

theorem plain_globalFunction {name : String} {args : List Data} {v : Data}
    (hArgs : ∀ v ∈ args, v.Plain) (hValue : globalFunction? name args = some v) : v.Plain := by
  unfold globalFunction? at hValue
  dsimp only at hValue
  split at hValue
  · cases hValue
    exact Builtin.Number.plain_toNumber args
  · cases hValue
    cases args with
    | nil => exact Data.plain_string.mpr (by decide)
    | cons first _ =>
        exact Data.plain_string.mpr (Data.plain_display (hArgs first List.mem_cons_self))
  · cases hValue
    exact Data.plain_bool _
  · cases hValue
    exact Data.plain_ofFloat _
  · cases hValue
    exact Data.plain_ofFloat _
  · cases hValue
    exact Data.plain_bool _
  · cases hValue

theorem plain_mathConstant {name : String} {v : Data} (hValue : mathConstant? name = some v) :
    v.Plain := by
  unfold mathConstant? at hValue
  dsimp only at hValue
  generalize (if name = "SQRT1_2" then "SQRT12" else name) = spelled at hValue
  split at hValue
  · obtain ⟨b, hFound, hRun⟩ := Option.bind_eq_some_iff.mp hValue
    have hKeeps := Builtin.Math.plain_functions b (List.mem_of_find?_eq_some hFound)
    cases hResult : b.run [] with
    | error e =>
        rw [hResult] at hRun
        cases hRun
    | ok w =>
        rw [hResult] at hRun
        cases hRun
        exact hKeeps [] (List.forall_mem_nil _) v hResult
  · cases hValue

theorem plain_callMath {name : String} {args : List Data} {v : Data}
    (hArgs : ∀ v ∈ args, v.Plain) (hValue : callMath name args = .ok v) : v.Plain := by
  unfold callMath at hValue
  split at hValue
  · cases hValue
    exact Builtin.Math.plain_extreme _ _ _
  · cases hValue
    exact Builtin.Math.plain_extreme _ _ _
  · split at hValue
    · next b hFound =>
      split at hValue
      · exact Builtin.Math.plain_functions b (List.mem_of_find?_eq_some hFound) args hArgs v hValue
      · cases hValue
    · cases hValue

theorem plain_arrayMethod {items : List Data} {name : String} {args : List Data} {v : Data}
    (h : ∀ v ∈ items, v.Plain) (hArgs : ∀ v ∈ args, v.Plain)
    (hValue : arrayMethod? items name args = some v) : v.Plain := by
  have hFirst := plain_argument hArgs 0
  unfold arrayMethod? at hValue
  dsimp only at hValue
  split at hValue
  · cases hValue
    rw [Data.plain_string, String.toList_intercalate]
    apply Text.Plain.intercalate
    · split
      · decide
      · exact Data.plain_display hFirst
    · intro t ht
      obtain ⟨text, hText, rfl⟩ := List.mem_map.mp ht
      exact Data.plain_displayItems h text hText
  · cases hValue
    exact Data.plain_bool _
  · cases hValue
    unfold indexOfItem
    split <;> exact Data.plain_ofInt _
  · cases hValue
    refine Data.plain_getD fun v hFound => ?_
    obtain ⟨i, -, hMem⟩ := Option.bind_eq_some_iff.mp hFound
    exact h v (List.mem_of_getElem? hMem)
  · cases hValue
    exact Data.plain_array.mpr fun v hv => h v (sliceOf_subset _ _ _ hv)
  · cases hValue
    rw [Data.plain_array]
    intro v hv
    unfold concatItems at hv
    rcases List.mem_append.mp hv with hv | hv
    · exact h v hv
    · obtain ⟨arg, hArg, hv⟩ := List.mem_flatMap.mp hv
      have hPlain := hArgs arg hArg
      split at hv
      · exact Data.plain_array.mp hPlain v hv
      · exact List.mem_singleton.mp hv ▸ hPlain
  · cases hValue
    exact Data.plain_string.mpr (Data.plain_display (Data.plain_array.mpr h))
  · cases hValue

/-- Methods of plain values give plain values. -/
theorem plain_callMethod {receiver : Data} {name : String} {args : List Data} {v : Data}
    (h : receiver.Plain) (hArgs : ∀ v ∈ args, v.Plain)
    (hValue : callMethod receiver name args = .ok v) : v.Plain := by
  unfold callMethod at hValue
  extract_lets missing plain at hValue
  -- what a number, a null and the like have for methods
  have hPlain (hw : plain = .ok v) : v.Plain := by
    dsimp only [plain] at hw
    split at hw
    · exact Builtin.Number.plain_toFixed hw
    · cases hw
      exact Data.plain_string.mpr (Data.plain_display h)
    · cases hw
  split at hValue
  · split at hValue
    · exact hPlain hValue
    · next text _ =>
      cases hFound : Builtin.Text.method? text name args with
      | none =>
          rw [hFound] at hValue
          cases hValue
      | some result =>
          rw [hFound] at hValue
          exact Builtin.Text.plain_method (Data.plain_string.mp h) hArgs
            (hFound.trans (congrArg some hValue))
  · split at hValue
    · next value hFound =>
      cases hValue
      exact plain_arrayMethod (Data.plain_array.mp h) hArgs hFound
    · cases hValue
  · exact hPlain hValue

theorem plain_setItem {items : List Data} {value : Data} (i : Nat) (h : ∀ v ∈ items, v.Plain)
    (hValue : value.Plain) : ∀ v ∈ setItem items i value, v.Plain := by
  intro v hv
  unfold setItem at hv
  split at hv
  · rcases List.mem_or_eq_of_mem_set hv with hv | rfl
    · exact h v hv
    · exact hValue
  · simp only [List.mem_append, List.mem_singleton] at hv
    rcases hv with (hv | hv) | rfl
    · exact h v hv
    · exact List.eq_of_mem_replicate hv ▸ Data.plain_null
    · exact hValue

theorem plain_setProperty {target value v : Data} {key : String} (h : target.Plain)
    (hKey : Plain key.toList) (hValue : value.Plain) (hSet : setProperty target key value = .ok v) :
    v.Plain := by
  unfold setProperty at hSet
  split at hSet
  · cases hSet
    rw [Data.plain_object]
    intro field hField
    rcases Bag.mem_insert hField with rfl | hField
    · exact ⟨hKey, hValue⟩
    · exact Data.plain_object.mp h field hField
  · split at hSet
    · cases hSet
      exact Data.plain_array.mpr (plain_setItem _ (Data.plain_array.mp h) hValue)
    · cases hSet
  · cases hSet

/-- A value with a plain part put into it under plain keys is plain. -/
theorem plain_setAt {target value v : Data} {keys : List String} (h : target.Plain)
    (hKeys : ∀ key ∈ keys, Plain key.toList) (hValue : value.Plain)
    (hSet : setAt target keys value = .ok v) : v.Plain := by
  induction keys generalizing target v with
  | nil =>
      cases hSet
      exact hValue
  | cons key rest ih =>
      have hKey := hKeys key List.mem_cons_self
      have hRest := fun k hk => hKeys k (List.mem_cons_of_mem key hk)
      cases rest with
      | nil => exact plain_setProperty h hKey hValue hSet
      | cons next more =>
          unfold setAt at hSet
          split at hSet
          · split at hSet
            · next fields inner hInner =>
              obtain ⟨changed, hChanged, rfl⟩ := map_eq_ok.mp hSet
              have hFields := Data.plain_object.mp h
              have hPart := ih (hFields _ (Bag.mem_of_get? hInner)).2 hRest hChanged
              rw [Data.plain_object]
              intro field hField
              rcases Bag.mem_set hField with rfl | hField
              · exact ⟨hKey, hPart⟩
              · exact hFields field hField
            · cases hSet
          · split at hSet
            · next items i inner hInner =>
              obtain ⟨changed, hChanged, rfl⟩ := map_eq_ok.mp hSet
              obtain ⟨j, -, hItem⟩ := Option.bind_eq_some_iff.mp hInner
              obtain ⟨part, hMem, hSame⟩ := Option.map_eq_some_iff.mp hItem
              cases hSame
              have hItems := Data.plain_array.mp h
              have hPart := ih (hItems _ (List.mem_of_getElem? hMem)) hRest hChanged
              rw [Data.plain_array]
              intro v hv
              rcases List.mem_or_eq_of_mem_set hv with hv | rfl
              · exact hItems v hv
              · exact hPart
            · cases hSet
          · cases hSet

end Script

end HtmlTemplate
