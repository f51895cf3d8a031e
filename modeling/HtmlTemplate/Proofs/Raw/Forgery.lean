import HtmlTemplate.Proofs.Raw.Rendering
import HtmlTemplate.Proofs.Session.Completion

/-! A page that forges a reference. It cannot name the raw data, but it writes an `@`, and
behind it a call puts a single character of a text into parentheses. If that character is
the name of the raw data, the page becomes what the name stands for. -/
namespace HtmlTemplate

/-! Arguments of calls, read and evaluated. -/

theorem numberArgument?_eq_none {text : List Char}
    (h : ((takeSign text).2.head?.any fun c => c.isDigit || c = '.') = false) :
    numberArgument? text = none := by
  unfold numberArgument?
  dsimp only
  rw [if_neg (by rw [h]; decide)]

section

variable {text : List Char} (hNumber : numberArgument? text = none)

include hNumber

theorem Argument.read_path (hPath : isPlainPath text = true) :
    Argument.read text = .path (String.ofList text) := by
  rw [Argument.read.eq_def, hNumber]
  dsimp only
  rw [if_pos hPath]

theorem Argument.read_call {name inside : List Char} (hPath : isPlainPath text = false)
    (hCall : looksLikeCall text = true) (hSplit : splitCall? text = some (name, inside)) :
    Argument.read text =
      .call (String.ofList name) ((splitArguments inside).map Argument.read) := by
  rw [Argument.read.eq_def, hNumber]
  dsimp only
  rw [if_neg (by rw [hPath]; decide), if_pos hCall]
  split
  · next found =>
    rw [hSplit] at found
    cases found
    rw [List.attach_map_val (f := Argument.read)]
  · next found =>
    rw [hSplit] at found
    cases found

theorem Argument.read_quoted {inner : List Char} (hPath : isPlainPath text = false)
    (hCall : looksLikeCall text = false) (hQuote : text.head? ≠ some '\x60')
    (hInner : Text.unquote? text = some inner) :
    Argument.read text = .text (String.ofList inner) := by
  rw [Argument.read.eq_def, hNumber]
  dsimp only
  rw [if_neg (by rw [hPath]; decide), if_neg (by rw [hCall]; decide), if_neg hQuote, hInner]

end

section

variable {e : Environment} {name : String} {f : List Data → Data} {a : Argument}
  {arguments : List Argument} {v : Data} {args : List Data}

theorem callByName_total (h : e.function? name = some (.builtin (.total name f))) :
    callByName e name args = .ok (f args) := by
  unfold callByName
  rw [h]
  rfl

theorem argumentValues_cons (hFirst : a.value e = .ok v)
    (hRest : argumentValues e arguments = .ok args) :
    argumentValues e (a :: arguments) = .ok (v :: args) := by
  rw [argumentValues, hFirst, hRest]
  rfl

theorem Argument.value_path {path : String} (h : e.path? path = some v) (hNull : v ≠ .null) :
    (Argument.path path).value e = .ok v := by
  rw [Argument.value, h]
  cases v with
  | null => exact absurd rfl hNull
  | _ => rfl

theorem Argument.value_call (h : argumentValues e arguments = .ok args) :
    (Argument.call name arguments).value e = callByName e name args := by
  rw [Argument.value, h]
  rfl

end

/-! The page. -/

/-- The call of the page: the character at `n` of `x`, in parentheses. -/
def forgeCall : String := "@concat(\"(\",at(x,n),\")\")"

def forgePage : String := "use string\nserve(@" ++ forgeCall ++ ")"

/-- The call is read as a tree. -/
theorem read_forgeCall : Call.read? forgeCall =
    some ⟨"concat", [.text "(", .call "at" [.path "x", .path "n"], .text ")"]⟩ := by
  have hSplit : splitCall? forgeCall.toList =
      some ("concat".toList, "\"(\",at(x,n),\")\"".toList) := by decide +kernel
  have hArguments : splitArguments "\"(\",at(x,n),\")\"".toList =
      ["\"(\"".toList, "at(x,n)".toList, "\")\"".toList] := by decide +kernel
  have hOpen : Argument.read "\"(\"".toList = .text "(" :=
    Argument.read_quoted (numberArgument?_eq_none (by decide)) (by decide) (by decide) (by decide)
      rfl
  have hClose : Argument.read "\")\"".toList = .text ")" :=
    Argument.read_quoted (numberArgument?_eq_none (by decide)) (by decide) (by decide) (by decide)
      rfl
  have hText : Argument.read "x".toList = .path "x" :=
    Argument.read_path (numberArgument?_eq_none (by decide)) (by decide)
  have hIndex : Argument.read "n".toList = .path "n" :=
    Argument.read_path (numberArgument?_eq_none (by decide)) (by decide)
  have hAt : Argument.read "at(x,n)".toList = .call "at" [.path "x", .path "n"] := by
    have hInner : splitCall? "at(x,n)".toList = some ("at".toList, "x,n".toList) := by decide
    have hPaths : splitArguments "x,n".toList = ["x".toList, "n".toList] := by decide
    rw [Argument.read_call (numberArgument?_eq_none (by decide)) (by decide) (by decide) hInner,
      hPaths, List.map_cons, List.map_cons, List.map_nil, hText, hIndex]
    rfl
  unfold Call.read?
  rw [hSplit, Option.map_some]
  dsimp only
  rw [hArguments, List.map_cons, List.map_cons, List.map_cons, List.map_nil, hOpen, hAt, hClose]
  rfl

theorem charAt_eq_underscore {text : List Char} {i : Nat} (h : text[i]? = some '_') :
    Builtin.Text.charAt text (.ofInt i) = .string "_" := by
  have hLess : i < text.length := (List.getElem?_eq_some_iff.mp h).1
  have hPlace : (Position.ofData (.ofInt i)).index? text.length = some i := by
    show (if 0 ≤ (i : Int) && (i : Int) < text.length then some (i : Int).toNat else none) = some i
    rw [if_pos (by simp only [Bool.and_eq_true, decide_eq_true_eq]; omega)]
    rfl
  have hTake : (text.drop i).take 1 = ['_'] := by
    rw [List.take_one, List.head?_drop, h]
    rfl
  unfold Builtin.Text.charAt
  rw [hPlace]
  dsimp only
  rw [hTake]
  rfl

/-- Its value is the name of the raw data in parentheses where the text has that. -/
theorem invoke_forgeCall {e : Environment} {text : String} {i : Nat}
    (hConcat : e.function? "concat" =
      some (.builtin (.total "concat" fun args => .string (Builtin.Text.joined args))))
    (hAt : e.function? "at" = some (.builtin (.total "at" fun args =>
      Builtin.Text.charAt (Builtin.Text.subject args) (argument args 1))))
    (hText : e.path? "x" = some (.string text)) (hIndex : e.path? "n" = some (.ofInt i))
    (h : text.toList[i]? = some '_') : invokeCall forgeCall e = .ok (.string "(_)") := by
  have hPaths : argumentValues e [.path "x", .path "n"] = .ok [.string text, .ofInt i] :=
    argumentValues_cons (Argument.value_path hText nofun)
      (argumentValues_cons (Argument.value_path hIndex nofun) rfl)
  have hChar : (Argument.call "at" [.path "x", .path "n"]).value e = .ok (.string "_") := by
    rw [Argument.value_call hPaths, callByName_total hAt]
    exact congrArg _ (charAt_eq_underscore h)
  have hArgs : argumentValues e [.text "(", .call "at" [.path "x", .path "n"], .text ")"] =
      .ok [.string "(", .string "_", .string ")"] :=
    argumentValues_cons rfl (argumentValues_cons hChar (argumentValues_cons rfl rfl))
  unfold invokeCall Call.values
  rw [read_forgeCall]
  dsimp only
  rw [hArgs]
  show callByName e "concat" _ = _
  rw [callByName_total hConcat]
  rfl

/-- The tokens of its body, the parenthesis that opens it aside. -/
def forgeBody : List Token := [
  ⟨.unknown, "@", ⟨17, 18, 2, 8⟩, "page"⟩,
  ⟨.call, forgeCall, ⟨18, 42, 2, 33⟩, "page"⟩,
  ⟨.closeParen, ")", ⟨42, 43, 2, 33⟩, "page"⟩]

def forgeTokens : List Token := [
  ⟨.keyword .useModule, "use", ⟨0, 3, 1, 4⟩, "page"⟩,
  ⟨.blank, " ", ⟨3, 4, 1, 4⟩, "page"⟩,
  ⟨.text, "string", ⟨4, 10, 2, 1⟩, "page"⟩,
  ⟨.blank, "\n", ⟨10, 11, 2, 1⟩, "page"⟩,
  ⟨.keyword .serve, "serve", ⟨11, 16, 2, 7⟩, "page"⟩,
  ⟨.openParen, "(", ⟨16, 17, 2, 7⟩, "page"⟩] ++ forgeBody

theorem scan_forgePage : Token.scanTemplate forgePage "page" = .ok forgeTokens := by
  have hTokens : (Token.scanTemplate forgePage "page").toOption = some forgeTokens := by
    decide +kernel
  cases hScanned : Token.scanTemplate forgePage "page" with
  | error e =>
      rw [hScanned] at hTokens
      cases hTokens
  | ok tokens =>
      rw [hScanned] at hTokens
      exact congrArg _ (Option.some.inj hTokens)

/-- A place in the page. -/
def forgeAt (context : Context) (rest : List Token) (outer : List Pending) : Rendering :=
  { Rendering.start forgeTokens context with rest, outer }

/-- The session that has been given the functions on texts. -/
def forgeSession (limit : Nat) : Session :=
  (Builtin.Text.functions.map Function.builtin).foldl
    (Setup.defineFunction (Session.start limit).pageScopes.2) (Session.start limit).pageScopes.1

theorem function?_forgeSession (limit : Nat) (name : String) :
    (forgeSession limit).function? (Session.start limit).pageScopes.2 name =
      (Builtin.Text.functions.map Function.builtin).reverse.find? (·.name = name) := by
  have hFrame : (Session.start limit).pageScopes.2.functions <
      (Session.start limit).pageScopes.1.functions.size := Nat.zero_lt_one
  have hWrites := (Session.writes_foldl_defineFunction (Session.start limit).pageScopes.2
    (Builtin.Text.functions.map Function.builtin) (Session.start limit).pageScopes.1).functions
  unfold Session.function? forgeSession
  rw [ScopeArena.lookup?_of_root _ (hWrites.parent?_eq _ hFrame),
    Session.lookupLocal?_foldl_defineFunction hFrame]
  exact Option.or_none

section

variable (nested : Nested) (resolve : Resolver) (context : Context) {limit : Nat}
  {text : List Char}

/-- The body writes an `@` and what the call gives. -/
theorem walk_forgeBody (session : Session) (paren : Token)
    (hCall : ∀ t : Token, t.value = forgeCall → context.callText session t = .ok text) :
    Rendering.walk nested true (forgeAt context forgeBody [⟨.paren, paren⟩]) session =
      (.ok ('@' :: text), forgeAt context [] [], session) := by
  let sigil := forgeAt context forgeBody [⟨.paren, paren⟩]
  let call := forgeAt context (forgeBody.drop 1) [⟨.paren, paren⟩]
  let close := forgeAt context (forgeBody.drop 2) [⟨.paren, paren⟩]
  have hClose : Rendering.walk nested true close session =
      (.ok [], forgeAt context [] [], session) := by
    apply Rendering.walk_of_close
    · rfl
    · rfl
    · rfl
    · rfl
    · rfl
  have hStep : close.step session true ⟨.call, forgeCall, ⟨18, 42, 2, 33⟩, "page"⟩ =
      (.emit text, close) := by
    have hText : close.context.callText session ⟨.call, forgeCall, ⟨18, 42, 2, 33⟩, "page"⟩ =
        .ok text := hCall _ rfl
    unfold Rendering.step
    dsimp only
    rw [hText]
  have hText : Rendering.walk nested true call session =
      ((Rendering.walk nested true close session).1.map (text ++ ·),
        (Rendering.walk nested true close session).2) :=
    Rendering.walk_of_ok (r := call) rfl rfl hStep rfl rfl
  have hSigil : Rendering.walk nested true sigil session =
      ((Rendering.walk nested true call session).1.map (['@'] ++ ·),
        (Rendering.walk nested true call session).2) := by
    apply Rendering.walk_of_ok (r := sigil)
    · rfl
    · rfl
    · rfl
    · rfl
    · rfl
  rw [hClose] at hText
  rw [hText] at hSigil
  refine hSigil.trans ?_
  simp only [Except.map, List.append_nil]
  rfl

/-- The page is given the functions on texts and renders its body. -/
theorem statements_forgePage (hScopes : context.scopes = (Session.start limit).pageScopes.2)
    (hCall : ∀ t : Token, t.value = forgeCall →
      context.callText (forgeSession limit) t = .ok text) :
    Rendering.statements nested resolve [] (Rendering.start forgeTokens context)
        (Session.start limit).pageScopes.1 =
      (.ok ('@' :: text), forgeAt context [] [], forgeSession limit) := by
  obtain ⟨bag, _, file⟩ := context
  subst hScopes
  let context : Context := ⟨bag, (Session.start limit).pageScopes.2, file⟩
  have hUse : Rendering.statements nested resolve [] (.start forgeTokens context)
        (Session.start limit).pageScopes.1 =
      Rendering.statements nested resolve [] (forgeAt context (forgeTokens.drop 3) [])
        (forgeSession limit) := by
    have hReader : Setup.reader? (Rendering.start forgeTokens context).endLocation .useModule =
      some (Setup.readUse (Rendering.start forgeTokens context).endLocation) := rfl
    have hRest : (Rendering.start forgeTokens context).rest =
      ⟨.keyword .useModule, "use", ⟨0, 3, 1, 4⟩, "page"⟩ :: forgeTokens.drop 1 := rfl
    rw [Rendering.statements_setup hRest rfl hReader]
    rfl
  have hBlank : Rendering.statements nested resolve []
        (forgeAt context (forgeTokens.drop 3) []) (forgeSession limit) =
      Rendering.statements nested resolve [] (forgeAt context (forgeTokens.drop 4) [])
        (forgeSession limit) := by
    have hRest : (forgeAt context (forgeTokens.drop 3) []).rest =
      ⟨.blank, "\n", ⟨10, 11, 2, 1⟩, "page"⟩ :: forgeTokens.drop 4 := rfl
    exact Rendering.statements_blank hRest rfl
  have hServe : Rendering.serve nested
        ((forgeAt context (forgeTokens.drop 4) []).moveTo (forgeTokens.drop 5))
        (forgeSession limit) =
      (.ok ('@' :: text), forgeAt context [] [], forgeSession limit) :=
    walk_forgeBody nested context (forgeSession limit)
      ⟨.openParen, "(", ⟨16, 17, 2, 7⟩, "page"⟩ hCall
  have hRest : (forgeAt context (forgeTokens.drop 4) []).rest =
    ⟨.keyword .serve, "serve", ⟨11, 16, 2, 7⟩, "page"⟩ :: forgeTokens.drop 5 := rfl
  have hEnd : (forgeAt context [] []).rest = [] := rfl
  rw [hUse, hBlank, Rendering.statements_serve hRest rfl, hServe]
  dsimp only
  rw [Rendering.statements_nil hEnd]
  rfl

end

/-- No components. -/
def noComponents : Resolver := fun _ path => .error (.notFound path)

/-- Where the text at `x` has an underscore at `n`, the page becomes what the name of the
raw data stands for. -/
theorem render_forgePage (bag : Bag) {text : String} {i : Nat}
    (hText : bag.lookup? "x" = some (.string text)) (hIndex : bag.lookup? "n" = some (.ofInt i))
    (h : text.toList[i]? = some '_') :
    ({ escapeParameters := false } : Options).render noComponents forgePage bag "page" =
      .ok (String.ofList (unshield (substitute bag "@(_)".toList))) := by
  let context : Context := ⟨bag, (Session.start 64).pageScopes.2, "page"⟩
  have hConcat := (function?_forgeSession 64 "concat").trans rfl
  have hAt := (function?_forgeSession 64 "at").trans rfl
  have hCall (t : Token) (ht : t.value = forgeCall) :
      context.callText (forgeSession 64) t = .ok "(_)".toList := by
    have hSplit : splitCall? forgeCall.toList =
        some ("concat".toList, "\"(\",at(x,n),\")\"".toList) := by decide +kernel
    have hKnown : ((forgeSession 64).function? context.scopes "concat").isNone = false :=
      congrArg Option.isNone hConcat
    have hValue : invokeCall forgeCall (context.environment (forgeSession 64)) =
        .ok (.string "(_)") :=
      invoke_forgeCall hConcat hAt hText hIndex h
    unfold Context.callText
    rw [ht, hValue, hSplit]
    dsimp only
    rw [Option.filter_some, if_neg (by rw [String.ofList_toList, hKnown]; decide)]
    rfl
  unfold Options.render
  rw [scan_forgePage]
  dsimp only
  unfold Rendering.document Rendering.template
  dsimp only
  have hPage := statements_forgePage ((Session.start 64).pageScopes.1.nested noComponents)
    noComponents context rfl hCall
  exact congrArg
    (fun page => (page.1.map fun html => unshield (substitute bag html)).map String.ofList) hPage

theorem shield_ne_nil {text : List Char} (h : text ≠ []) : shield text ≠ [] := by
  fun_cases shield text with
  | case1 => exact absurd rfl h
  | case2 c => nofun
  | case3 c d rest _ => nofun
  | case4 c d rest _ => nofun

theorem stringify_object_ne_nil (fields : List (String × Data)) :
    (Data.stringify (some (.object fields))).toList ≠ [] := by
  unfold Data.stringify Json.write
  rw [String.toList_ofList]
  nofun

theorem substitute_nil (bag : Bag) : substitute bag [] = [] := by
  rw [substitute.eq_def]

theorem substitute_reference (bag : Bag) {rest inner after : List Char}
    (hInner : referenceInner? rest = some (inner, after)) :
    substitute bag ('@' :: '(' :: rest) =
      shield (resolveReference bag inner).toList ++ substitute bag after := by
  rw [substitute.eq_def]
  dsimp only
  rw [if_pos (by rfl)]
  split
  · next found =>
    cases hInner.symm.trans found
    rfl
  · next found => cases hInner.symm.trans found

/-- A reference to the raw data as a whole. -/
theorem substitute_rawReference (bag : Bag) :
    substitute bag "@(_)".toList = shield (Data.stringify (bag.get? rawKey)).toList := by
  have hLookup : bag.lookup? "_" = bag.get? rawKey := by
    have hSegments : pathSegments "_" = [rawKey] := by decide
    unfold Bag.lookup?
    rw [hSegments]
    dsimp only
    cases bag.get? rawKey <;> rfl
  have hInner : referenceInner? "_)".toList = some (['_'], []) := by decide
  have hResolved : resolveReference bag ['_'] = Data.stringify (bag.lookup? "_") := rfl
  refine (substitute_reference bag hInner).trans ?_
  rw [hResolved, hLookup, substitute_nil, List.append_nil]

end HtmlTemplate
