import HtmlTemplate.Markup.Call
import HtmlTemplate.Markup.Reference
import HtmlTemplate.Markup.Tag
import HtmlTemplate.Proofs.Raw.Evaluation

/-! Markup where the raw data is in reach and where it is not. References, attributes and
calls of plain markup give the same plain text in both bags. -/
namespace HtmlTemplate

open Text (Plain)

theorem plain_shield {text : List Char} (h : Plain text) : Plain (shield text) := by
  fun_induction shield text with
  | case1 => exact h
  | case2 c => exact h
  | case3 c d rest _ ih =>
      exact Text.plain_cons.mpr ⟨by decide, ih (Text.plain_cons.mp h).2⟩
  | case4 c d rest _ ih =>
      obtain ⟨hFirst, hRest⟩ := Text.plain_cons.mp h
      exact Text.plain_cons.mpr ⟨hFirst, ih hRest⟩

/-! References. -/

theorem plain_referenceInner {text inner after : List Char} (h : Plain text)
    (hFound : referenceInner? text = some (inner, after)) : Plain inner ∧ Plain after := by
  have hBehind := h.dropWhile fun c => c ≠ ')' && c ≠ '\n'
  unfold referenceInner? at hFound
  dsimp only at hFound
  split at hFound
  · next rest hClose =>
    cases hFound
    rw [hClose] at hBehind
    exact ⟨h.takeWhile _, (Text.plain_cons.mp hBehind).2⟩
  · cases hFound

section

variable {a b : Bag} (hBags : a.Twins b)

include hBags

theorem plain_lookupText {path : List Char} (h : Plain path) :
    Plain (Data.stringify (a.lookup? (String.ofList path))).toList :=
  Data.plain_stringify fun _ => hBags.plain_lookup? (Text.plain_ofList.mpr h)

/-- A plain reference stands for the same plain text in both bags. -/
theorem resolveReference_twin {inner : List Char} (h : Plain inner) :
    resolveReference a inner = resolveReference b inner ∧
      Plain (resolveReference a inner).toList := by
  have hTrimmed := h.trim
  have hSame {path : List Char} (hPath : Plain path) :=
    hBags.lookup?_eq (Text.plain_ofList.mpr hPath)
  unfold resolveReference
  dsimp only
  cases hSplit : Text.splitFirst? "||".toList (Text.trim inner) with
  | none => exact ⟨by rw [hSame hTrimmed], plain_lookupText hBags hTrimmed⟩
  | some parts =>
      obtain ⟨left, right⟩ := parts
      obtain ⟨hLeft, hRight⟩ := hTrimmed.splitFirst hSplit
      dsimp only
      rw [← hSame hLeft.trim]
      split
      · next value hValue =>
        refine ⟨rfl, Data.plain_stringify ?_⟩
        rintro _ ⟨⟩
        have hFound := (Option.filter_eq_some_iff.mp hValue).1
        exact hBags.plain_lookup? (Text.plain_ofList.mpr hLeft.trim) hFound
      · split
        · next literal hLiteral =>
          exact ⟨rfl, Text.plain_ofList.mpr (hRight.trim.unquote hLiteral)⟩
        · exact ⟨by rw [hSame hRight.trim], plain_lookupText hBags hRight.trim⟩

/-- Plain markup becomes the same plain text when its references are replaced. -/
theorem substitute_twin {text : List Char} (h : Plain text) :
    substitute a text = substitute b text ∧ Plain (substitute a text) := by
  induction hLength : text.length using Nat.strongRecOn generalizing text with
  | ind length ih =>
      subst hLength
      cases text with
      | nil =>
          rw [substitute.eq_def a, substitute.eq_def b]
          exact ⟨rfl, h⟩
      | cons c rest =>
          obtain ⟨hFirst, hRest⟩ := Text.plain_cons.mp h
          -- a character that stays, and what follows it
          have hKeep : c :: substitute a rest = c :: substitute b rest ∧
              Plain (c :: substitute a rest) := by
            obtain ⟨hSame, hPlain⟩ := ih _ (Nat.lt_succ_self _) hRest rfl
            exact ⟨congrArg _ hSame, Text.plain_cons.mpr ⟨hFirst, hPlain⟩⟩
          rw [substitute.eq_def a, substitute.eq_def b]
          dsimp only
          split
          · split
            · next inner after hInner =>
              obtain ⟨hPath, hAfter⟩ := plain_referenceInner (hRest.drop 1) hInner
              obtain ⟨hSame, hPlain⟩ := resolveReference_twin hBags hPath
              have hShorter := length_referenceInner? hInner
              have hLess : after.length < (c :: rest).length := by
                simp only [List.length_drop, List.length_cons] at hShorter ⊢
                omega
              obtain ⟨hBehind, hText⟩ := ih _ hLess hAfter rfl
              refine ⟨?_, Text.plain_append.mpr ⟨plain_shield hPlain, hText⟩⟩
              rw [hSame, hBehind]
            · exact hKeep
          · split
            · split
              · next length _ =>
                have hLess : (rest.drop length).length < (c :: rest).length := by
                  simp only [List.length_drop, List.length_cons]
                  omega
                obtain ⟨hBehind, hText⟩ := ih _ hLess (hRest.drop length) rfl
                refine ⟨by rw [hBehind], Text.plain_cons.mpr ⟨hFirst, ?_⟩⟩
                exact Text.plain_append.mpr ⟨hRest.take length, hText⟩
              · exact hKeep
            · exact hKeep

end

/-! Attributes. -/

/-- An attribute value that cannot name the raw data. -/
def AttributeValue.Plain : AttributeValue → Prop
  | .quoted text | .reference text => Text.Plain text

theorem plain_attributeValue {text after : List Char} {value : AttributeValue} (h : Plain text)
    (hFound : attributeValue? text = some (value, after)) : value.Plain ∧ Plain after := by
  unfold attributeValue? at hFound
  split at hFound
  · next rest =>
    have hRest := (Text.plain_cons.mp h).2
    have hBehind := hRest.dropWhile (· ≠ '"')
    split at hFound
    · next last hQuote =>
      cases hFound
      rw [hQuote] at hBehind
      exact ⟨hRest.takeWhile _, (Text.plain_cons.mp hBehind).2⟩
    · cases hFound
  · next rest =>
    have hRest := (Text.plain_cons.mp (Text.plain_cons.mp h).2).2
    have hBehind := hRest.dropWhile (· ≠ ')')
    split at hFound
    · next last hClose =>
      cases hFound
      rw [hClose] at hBehind
      exact ⟨hRest.takeWhile _, (Text.plain_cons.mp hBehind).2⟩
    · cases hFound
  · cases hFound

theorem plain_attributes {text : List Char} (h : Plain text) :
    ∀ entry ∈ attributes text, entry.2.Plain := by
  fun_induction attributes text with
  | case1 => exact List.forall_mem_nil _
  | case2 c rest _ name after hEquals value last hValue ih =>
      have hBehind := (Text.plain_cons.mp h).2.dropWhile Source.isNameChar
      rw [hEquals] at hBehind
      obtain ⟨hPlain, hLast⟩ := plain_attributeValue (Text.plain_cons.mp hBehind).2 hValue
      exact List.forall_mem_cons.mpr ⟨hPlain, ih hLast⟩
  | case3 c rest _ after hEquals _ ih =>
      have hBehind := (Text.plain_cons.mp h).2.dropWhile Source.isNameChar
      rw [hEquals] at hBehind
      exact ih (Text.plain_cons.mp hBehind).2
  | case4 c rest _ _ ih =>
      exact ih ((Text.plain_cons.mp h).2.dropWhile Source.isNameChar)
  | case5 c rest _ ih => exact ih (Text.plain_cons.mp h).2

theorem plain_tagParts {tag name text : List Char} (h : Plain tag)
    (hParts : tagParts? tag = some (name, text)) : Plain text := by
  unfold tagParts? at hParts
  split at hParts
  · next rest =>
    have hRest := (Text.plain_cons.mp h).2
    have hText := (hRest.dropWhile Source.isNameChar).takeWhile (· ≠ '>')
    dsimp only at hParts
    split at hParts
    · cases hParts
      split
      · exact hText.dropLast
      · exact hText
    · cases hParts
  · cases hParts

section

variable {a b : Bag} (hBags : a.Twins b)

include hBags

theorem attribute_twin {value : AttributeValue} (h : value.Plain) :
    value.resolve a = value.resolve b ∧ (value.resolve a).Plain := by
  cases value with
  | quoted text =>
      obtain ⟨hSame, hPlain⟩ := substitute_twin hBags h
      exact ⟨congrArg Data.ofChars hSame, Data.plain_ofChars.mpr hPlain⟩
  | reference path =>
      have hPath : Plain (String.ofList path).toList := Text.plain_ofList.mpr h
      refine ⟨congrArg (Option.getD · Data.null) (hBags.lookup?_eq hPath), Data.plain_getD ?_⟩
      exact fun v => hBags.plain_lookup? hPath

/-- The attributes of a plain tag are the same plain values in both bags. -/
theorem attributeBag_twin {text : List Char} (h : Plain text) :
    (attributeBag a text).Twins (attributeBag b text) := by
  have hValues := plain_attributes h
  have hSame : attributeBag a text = attributeBag b text := by
    unfold attributeBag
    refine congrArg Bag.ofList (List.map_congr_left ?_)
    rintro ⟨name, value⟩ hEntry
    exact congrArg (Prod.mk name) (attribute_twin hBags (hValues _ hEntry)).1
  rw [← hSame]
  refine .refl (Bag.sorted_ofList _) ?_
  intro entry hEntry
  obtain ⟨found, hFound, rfl⟩ := List.mem_map.mp (Bag.mem_ofList hEntry)
  exact (attribute_twin hBags (hValues found hFound)).2

end

/-! Calls. -/

theorem plain_insideParens {text inside : List Char} (h : Plain text)
    (hInside : insideParens? text = some inside) : Plain inside := by
  rw [insideParens?_eq_some.mp hInside] at h
  exact (Text.plain_append.mp (Text.plain_cons.mp h).2).1

theorem plain_afterSigil {text : List Char} (h : Plain text) : Plain (afterSigil text) := by
  cases text with
  | nil => exact h
  | cons c rest =>
      unfold afterSigil
      dsimp only
      split
      · exact (Text.plain_cons.mp h).2
      · exact h

theorem plain_splitCall {text name inside : List Char} (h : Plain text)
    (hSplit : splitCall? text = some (name, inside)) : Plain inside := by
  have hBody := plain_afterSigil h.trim
  unfold splitCall? at hSplit
  dsimp only at hSplit
  split at hSplit
  · cases hSplit
  · obtain ⟨found, hFound, hEq⟩ := Option.map_eq_some_iff.mp hSplit
    cases hEq
    exact plain_insideParens ((hBody.dropWhile _).dropWhile _) hFound

theorem plain_splitArgumentsFrom {depth : Int} {quote previous : Option Char}
    {current text : List Char} (hCurrent : Plain current) (h : Plain text) :
    ∀ argument ∈ splitArgumentsFrom depth quote previous current text, Plain argument := by
  have hRead {current : List Char} (hCurrent : Plain current) :
      Plain (Text.trim current.reverse) := (Text.plain_reverse.mpr hCurrent).trim
  induction text generalizing depth quote previous current with
  | nil =>
      unfold splitArgumentsFrom
      dsimp only
      split
      · exact List.forall_mem_nil _
      · exact List.forall_mem_singleton.mpr (hRead hCurrent)
  | cons c rest ih =>
      obtain ⟨hFirst, hRest⟩ := Text.plain_cons.mp h
      have hLonger : Plain (c :: current) := Text.plain_cons.mpr ⟨hFirst, hCurrent⟩
      unfold splitArgumentsFrom
      split
      · exact ih hLonger hRest
      · split
        · exact ih hLonger hRest
        · split
          · exact ih hLonger hRest
          · split
            · exact List.forall_mem_cons.mpr ⟨hRead hCurrent, ih Text.plain_nil hRest⟩
            · exact ih hLonger hRest

theorem plain_splitArguments {inside : List Char} (h : Plain inside) :
    ∀ argument ∈ splitArguments inside, Plain argument :=
  plain_splitArgumentsFrom Text.plain_nil h

mutual

/-- All paths and texts in an argument are plain. -/
def Argument.Plain : Argument → Prop
  | .number _ | .malformed _ => True
  | .path text | .text text => Text.Plain text.toList
  | .call _ arguments => PlainArguments arguments

/-- The same of arguments. -/
def PlainArguments : List Argument → Prop
  | [] => True
  | a :: rest => a.Plain ∧ PlainArguments rest

end

theorem plainArguments_of_forall {arguments : List Argument} (h : ∀ a ∈ arguments, a.Plain) :
    PlainArguments arguments := by
  induction arguments with
  | nil => trivial
  | cons a rest ih =>
      obtain ⟨hFirst, hRest⟩ := List.forall_mem_cons.mp h
      exact ⟨hFirst, ih hRest⟩

theorem plain_readArgument {text : List Char} (h : Plain text) : (Argument.read text).Plain := by
  fun_induction Argument.read text with
  | case1 text x _ => trivial
  | case2 text _ _ => exact Text.plain_ofList.mpr h
  | case3 text _ _ _ name inside hCall ih =>
      refine plainArguments_of_forall ?_
      intro a ha
      obtain ⟨⟨argument, hMem⟩, -, rfl⟩ := List.mem_map.mp ha
      exact ih argument hMem (plain_splitArguments (plain_splitCall h hCall) argument hMem)
  | case4 text _ _ _ _ => trivial
  | case5 text _ _ _ inner hInner =>
      split at hInner
      · cases hInner
      · exact Text.plain_ofList.mpr (h.unquote hInner)
  | case6 text _ _ _ _ => exact Text.plain_ofList.mpr h

section

variable {e f : Environment} (hEnv : e.Twins f)

include hEnv

theorem callByName_twin (name : String) {args : List Data} (h : ∀ v ∈ args, v.Plain) :
    callByName e name args = callByName f name args ∧
      ∀ v, callByName e name args = .ok v → v.Plain := by
  unfold callByName
  rw [← hEnv.function_same]
  split
  · next g hFound => exact g.call_twin hEnv (hEnv.function_plain name g hFound) h
  · exact ⟨rfl, nofun⟩

/-- A call whose arguments are the same plain values gives the same plain value. -/
theorem callWith_twin (name : String) {values : Except EvalError (List Data)}
    (h : ∀ args, values = .ok args → ∀ v ∈ args, v.Plain) :
    values >>= callByName e name = values >>= callByName f name ∧
      ∀ v, values >>= callByName e name = .ok v → v.Plain := by
  refine ⟨bind_congr_ok fun args hArgs => (callByName_twin hEnv name (h args hArgs)).1, ?_⟩
  intro v hValue
  obtain ⟨args, hArgs, hValue⟩ := bind_eq_ok.mp hValue
  exact (callByName_twin hEnv name (h args hArgs)).2 v hValue

-- the linter looks at one theorem of a mutual block at a time
set_option linter.unusedSectionVars false

mutual

/-- A plain argument has the same plain value in both environments. -/
theorem argument_twin {a : Argument} (h : a.Plain) :
    a.value e = a.value f ∧ ∀ v, a.value e = .ok v → v.Plain := by
  match a, h with
  | .number x, _ =>
      refine ⟨rfl, ?_⟩
      rintro _ ⟨⟩
      exact Data.plain_ofFloat x
  | .path path, h =>
      unfold Argument.value
      rw [← hEnv.path_same path h]
      refine ⟨rfl, fun v hValue => ?_⟩
      split at hValue
      · cases hValue
        exact Data.plain_string.mpr (by decide)
      · cases hValue
        exact Data.plain_string.mpr (by decide)
      · next value _ hFound =>
        cases hValue
        exact hEnv.path_plain path _ h hFound
  | .call name arguments, h =>
      have hArguments : PlainArguments arguments := h
      obtain ⟨hSame, hPlain⟩ := arguments_twin hArguments
      unfold Argument.value
      rw [← hSame]
      exact callWith_twin hEnv name hPlain
  | .malformed text, _ => exact ⟨rfl, nofun⟩
  | .text text, h =>
      refine ⟨rfl, ?_⟩
      rintro _ ⟨⟩
      exact Data.plain_string.mpr h

theorem arguments_twin {arguments : List Argument} (h : PlainArguments arguments) :
    argumentValues e arguments = argumentValues f arguments ∧
      ∀ args, argumentValues e arguments = .ok args → ∀ v ∈ args, v.Plain := by
  match arguments, h with
  | [], _ =>
      refine ⟨rfl, ?_⟩
      rintro _ ⟨⟩
      exact List.forall_mem_nil _
  | a :: rest, h =>
      obtain ⟨hFirst, hPlain⟩ := argument_twin h.1
      obtain ⟨hRest, hOthers⟩ := arguments_twin h.2
      unfold argumentValues
      rw [← hFirst, ← hRest]
      refine ⟨rfl, fun args hArgs => ?_⟩
      obtain ⟨v, hValue, hArgs⟩ := bind_eq_ok.mp hArgs
      obtain ⟨values, hValues, hArgs⟩ := bind_eq_ok.mp hArgs
      cases hArgs
      exact List.forall_mem_cons.mpr ⟨hPlain v hValue, hOthers values hValues⟩

end

/-- So does a plain call. -/
theorem invokeCall_twin {text : String} (h : Plain text.toList) :
    invokeCall text e = invokeCall text f ∧ ∀ v, invokeCall text e = .ok v → v.Plain := by
  unfold invokeCall
  cases hCall : Call.read? text with
  | none => exact ⟨rfl, nofun⟩
  | some call =>
      unfold Call.read? at hCall
      obtain ⟨⟨name, inside⟩, hSplit, rfl⟩ := Option.map_eq_some_iff.mp hCall
      have hTexts := plain_splitArguments (plain_splitCall h hSplit)
      have hArguments : PlainArguments ((splitArguments inside).map Argument.read) := by
        apply plainArguments_of_forall
        exact List.forall_mem_map.mpr fun t ht => plain_readArgument (hTexts t ht)
      obtain ⟨hSame, hPlain⟩ := arguments_twin hEnv hArguments
      unfold Call.values
      dsimp only
      rw [← hSame]
      exact callWith_twin hEnv _ hPlain

end

end HtmlTemplate
