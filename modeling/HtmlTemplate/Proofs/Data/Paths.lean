import HtmlTemplate.Data.Path
import Mathlib.Data.List.Chain
import Mathlib.Data.List.DropRight

/-! Paths and their spellings. A key of a path may be written behind a dot or between brackets,
with quotes or without; whichever of the ways that can express it is taken, cutting the path
gives the keys back, and following it makes one step for each of them. -/
namespace HtmlTemplate

namespace Text

theorem trimStart_eq_self_iff {text : List Char} :
    trimStart text = text ↔ ∀ c ∈ text.head?, isBlank c = false := by
  cases text with
  | nil => simp [trimStart]
  | cons c rest => simp [trimStart, List.dropWhile_eq_self_iff]

theorem trimEnd_eq_self_iff {text : List Char} :
    trimEnd text = text ↔ ∀ c ∈ text.getLast?, isBlank c = false := by
  rw [← List.head?_reverse, ← trimStart_eq_self_iff, ← List.reverse_eq_iff]
  rfl

/-- A text that neither begins nor ends with a blank is left as it is, and no other is. -/
theorem trim_eq_self_iff {text : List Char} : trim text = text ↔
    (∀ c ∈ text.head?, isBlank c = false) ∧ ∀ c ∈ text.getLast?, isBlank c = false := by
  rw [← trimStart_eq_self_iff, ← trimEnd_eq_self_iff]
  refine ⟨fun h => ?_, fun ⟨hStart, hEnd⟩ => by rw [trim, hStart, hEnd]⟩
  have hLess : (trim text).length ≤ (trimStart text).length := length_trimEnd_le _
  have hLength : (trimStart text).length = text.length :=
    Nat.le_antisymm (length_trimStart_le text) (by rwa [h] at hLess)
  have hStart : trimStart text = text := (List.dropWhile_suffix isBlank).eq_of_length hLength
  exact ⟨hStart, by rwa [trim, hStart] at h⟩

theorem trimStart_append_of_all {blanks : List Char} (h : blanks.all isBlank = true)
    (text : List Char) : trimStart (blanks ++ text) = trimStart text :=
  List.dropWhile_append_of_pos (List.all_eq_true.mp h)

/-- What is in front of a character that is no blank is left as it is. -/
theorem trimEnd_append_cons {c : Char} (hSolid : isBlank c = false) (front more : List Char) :
    trimEnd (front ++ c :: more) = front ++ c :: trimEnd more := by
  unfold trimEnd
  rw [List.reverse_append, List.reverse_cons, List.append_assoc, List.dropWhile_append]
  cases hMore : more.reverse.dropWhile isBlank with
  | nil => simp [hSolid]
  | cons d others => simp

end Text

/-- How a key is written in a path: plainly, with dots around it, or between brackets, where
quotes may enclose it. -/
inductive KeyForm where
  | dotted
  | bare
  | quoted (quote : Char)
  deriving DecidableEq

/-- Whether a key can be written in a form: the characters that end it are not in it. -/
def KeyForm.Expresses : KeyForm → List Char → Prop
  | dotted, key => key ≠ [] ∧ '.' ∉ key ∧ '[' ∉ key
  | bare, key => ']' ∉ key ∧ key.head? ≠ some '"' ∧ key.head? ≠ some '\''
  | quoted quote, key => (quote = '"' ∨ quote = '\'') ∧ quote ∉ key

instance (form : KeyForm) (key : List Char) : Decidable (form.Expresses key) :=
  match form with
  | .dotted => inferInstanceAs (Decidable (_ ∧ _ ∧ _))
  | .bare => inferInstanceAs (Decidable (_ ∧ _ ∧ _))
  | .quoted _ => inferInstanceAs (Decidable (_ ∧ _))

/-- A key as it is written in a path, and whether a dot stands in front of it. -/
structure WrittenKey where
  dot : Bool
  form : KeyForm
  key : String
  expresses : form.Expresses key.toList

namespace WrittenKey

/-- The characters of a key without the dot in front of it. -/
def text (k : WrittenKey) : List Char :=
  match k.form with
  | .dotted => k.key.toList
  | .bare => '[' :: (k.key.toList ++ [']'])
  | .quoted quote => '[' :: quote :: (k.key.toList ++ [quote, ']'])

theorem text_dotted {k : WrittenKey} (h : k.form = .dotted) : k.text = k.key.toList := by
  unfold text
  rw [h]

theorem text_bare {k : WrittenKey} (h : k.form = .bare) :
    k.text = '[' :: (k.key.toList ++ [']']) := by
  unfold text
  rw [h]

theorem text_quoted {k : WrittenKey} {quote : Char} (h : k.form = .quoted quote) :
    k.text = '[' :: quote :: (k.key.toList ++ [quote, ']']) := by
  unfold text
  rw [h]

/-- Two plain keys are kept apart by a dot; where a bracket does so, the dot is optional. -/
def Joins (k next : WrittenKey) : Prop :=
  k.form = .dotted → next.form = .dotted → next.dot = true

instance (k next : WrittenKey) : Decidable (k.Joins next) :=
  inferInstanceAs (Decidable (_ → _ → _))

/-- The characters of keys that go on with a path. -/
def behind (keys : List WrittenKey) : List Char :=
  keys.flatMap fun k => (if k.dot then ['.'] else []) ++ k.text

/-- The characters of keys that begin a path: there is no dot in front of the first. -/
def whole : List WrittenKey → List Char
  | [] => []
  | k :: rest => k.text ++ behind rest

section

variable {rest : List Char} {current key : List Char}

theorem pathKeys_plain (h : '.' ∉ key ∧ '[' ∉ key) :
    pathKeys 0 .plain current (key ++ rest) = pathKeys 0 .plain (key.reverse ++ current) rest := by
  induction key generalizing current with
  | nil => rfl
  | cons c others ih =>
      have hDot : c ≠ '.' := fun hc => h.1 (hc ▸ List.mem_cons_self)
      have hBracket : c ≠ '[' := fun hc => h.2 (hc ▸ List.mem_cons_self)
      have hOthers : '.' ∉ others ∧ '[' ∉ others :=
        ⟨fun hc => h.1 (List.mem_cons_of_mem _ hc), fun hc => h.2 (List.mem_cons_of_mem _ hc)⟩
      rw [List.cons_append, pathKeys, if_neg hDot, if_neg hBracket, ih hOthers]
      simp

theorem pathKeys_bracket {quote : Option Char} {c : Char}
    (hKey : ∀ d ∈ key, endsKey quote d = false) (hEnds : endsKey quote c = true) :
    pathKeys 0 (.bracket quote) current (key ++ c :: rest) =
      String.ofList (current.reverse ++ key) :: pathKeys (afterKey quote rest) .plain [] rest := by
  induction key generalizing current with
  | nil => simp [pathKeys, hEnds]
  | cons d others ih =>
      obtain ⟨hFirst, hOthers⟩ := List.forall_mem_cons.mp hKey
      rw [List.cons_append, pathKeys, if_neg (by simp [hFirst]), ih hOthers]
      simp

theorem pathKeys_opening (hSome : current ≠ []) :
    pathKeys 0 .plain current ('[' :: rest) =
      String.ofList current.reverse :: pathKeys 0 .plain [] ('[' :: rest) := by
  simp [pathKeys, hSome]

end

/-- Brackets are what all other keys begin with. -/
theorem exists_text_eq_bracket {k : WrittenKey} (h : k.form ≠ .dotted) :
    ∃ rest, k.text = '[' :: rest := by
  cases hForm : k.form with
  | dotted => exact absurd hForm h
  | bare => exact ⟨_, text_bare hForm⟩
  | quoted quote => exact ⟨_, text_quoted hForm⟩

/-- No key begins with a dot. -/
theorem exists_text_eq_cons (k : WrittenKey) : ∃ c rest, k.text = c :: rest ∧ c ≠ '.' := by
  by_cases hForm : k.form = .dotted
  · have hKey := k.expresses
    rw [hForm] at hKey
    obtain ⟨hSome, hDot, -⟩ := hKey
    obtain ⟨c, rest, hText⟩ := List.exists_cons_of_ne_nil hSome
    refine ⟨c, rest, (text_dotted hForm).trans hText, ?_⟩
    rintro rfl
    exact hDot (hText ▸ List.mem_cons_self)
  · obtain ⟨rest, hText⟩ := exists_text_eq_bracket hForm
    exact ⟨'[', rest, hText, by decide⟩

/-- What closes a bracketed key behind the character that ends it. -/
def closing : Option Char → List Char
  | some _ => [']']
  | none => []

/-- Behind a bracketed key a path goes on as it begins: what closes the bracket is left out, and
so is a dot. -/
theorem pathKeys_closing (quote : Option Char) (keys : List WrittenKey) :
    pathKeys (afterKey quote (closing quote ++ behind keys)) .plain []
      (closing quote ++ behind keys) = pathKeys 0 .plain [] (whole keys) := by
  cases keys with
  | nil => cases quote <;> rfl
  | cons k rest =>
      obtain ⟨c, others, hText, hDot⟩ := k.exists_text_eq_cons
      cases hKey : k.dot <;> cases quote <;>
        simp [behind, whole, closing, afterKey, pathKeys, hText, hKey, hDot]

/-- A bracketed key ends with the character that its form has for that. -/
theorem pathKeys_bracketed {quote : Option Char} {key : List Char} {c : Char}
    (keys : List WrittenKey) (hKey : ∀ d ∈ key, endsKey quote d = false)
    (hEnds : endsKey quote c = true) :
    pathKeys 0 (.bracket quote) [] (key ++ c :: (closing quote ++ behind keys)) =
      String.ofList key :: pathKeys 0 .plain [] (whole keys) := by
  rw [pathKeys_bracket hKey hEnds, pathKeys_closing, List.reverse_nil, List.nil_append]

/-- A plain key ends where the next one begins. -/
theorem pathKeys_behind {current : List Char} {keys : List WrittenKey} (hSome : current ≠ [])
    (hJoins : ∀ k ∈ keys.head?, k.form = .dotted → k.dot = true) :
    pathKeys 0 .plain current (behind keys) =
      String.ofList current.reverse :: pathKeys 0 .plain [] (whole keys) := by
  cases keys with
  | nil => simp [behind, whole, pathKeys, hSome]
  | cons k rest =>
      cases hKey : k.dot with
      | true => simp [behind, whole, hKey, pathKeys]
      | false =>
          have hForm : k.form ≠ .dotted := fun h => by simpa [hKey] using hJoins k rfl h
          obtain ⟨others, hText⟩ := exists_text_eq_bracket hForm
          have hBehind : behind (k :: rest) = '[' :: (others ++ behind rest) := by
            simp [behind, hKey, hText]
          have hWhole : whole (k :: rest) = '[' :: (others ++ behind rest) := by
            simp [whole, hText]
          rw [hBehind, hWhole, pathKeys_opening hSome]

/-- One key is cut off the front of a path. -/
theorem pathKeys_cons {k : WrittenKey} {rest : List WrittenKey}
    (hJoins : ∀ next ∈ rest.head?, k.Joins next) :
    pathKeys 0 .plain [] (whole (k :: rest)) = k.key :: pathKeys 0 .plain [] (whole rest) := by
  have hKey := k.expresses
  cases hForm : k.form with
  | dotted =>
      rw [hForm] at hKey
      obtain ⟨hSome, hPlain⟩ := hKey
      have hBehind := pathKeys_behind (List.reverse_ne_nil_iff.mpr hSome)
        fun next hNext => hJoins next hNext hForm
      rw [List.reverse_reverse, String.ofList_toList] at hBehind
      rw [whole, text_dotted hForm, pathKeys_plain hPlain, List.append_nil, hBehind]
  | bare =>
      rw [hForm] at hKey
      obtain ⟨hClose, hFirst⟩ := hKey
      have hOpening : openingQuote? (k.key.toList ++ ']' :: behind rest) = none := by
        cases hText : k.key.toList with
        | nil => rfl
        | cons c others => simpa [openingQuote?, hText] using hFirst
      have hPlain : ∀ c ∈ k.key.toList, endsKey none c = false := fun c hc =>
        beq_eq_false_iff_ne.mpr fun hSame => hClose (hSame ▸ hc)
      have hCut := pathKeys_bracketed rest hPlain (beq_self_eq_true ']')
      rw [String.ofList_toList] at hCut
      simpa [whole, text_bare hForm, closing, pathKeys, hOpening] using hCut
  | quoted quote =>
      rw [hForm] at hKey
      obtain ⟨hQuote, hClose⟩ := hKey
      have hOpening (text : List Char) : openingQuote? (quote :: text) = some quote := by
        rcases hQuote with rfl | rfl <;> rfl
      have hPlain : ∀ c ∈ k.key.toList, endsKey (some quote) c = false := fun c hc =>
        beq_eq_false_iff_ne.mpr fun hSame => hClose (hSame ▸ hc)
      have hCut := pathKeys_bracketed rest hPlain (beq_self_eq_true quote)
      rw [String.ofList_toList] at hCut
      simpa [whole, text_quoted hForm, closing, pathKeys, hOpening] using hCut

/-- A run of keys is cut as it was put together. -/
theorem pathKeys_whole {keys : List WrittenKey} (h : keys.IsChain Joins) :
    pathKeys 0 .plain [] (whole keys) = keys.map key := by
  induction keys with
  | nil => rfl
  | cons k rest ih =>
      obtain ⟨hJoins, hRest⟩ := List.isChain_cons.mp h
      rw [pathKeys_cons hJoins, ih hRest, List.map_cons]

/-- A path ends with the characters of its last key. -/
theorem exists_whole_eq_append (init : List WrittenKey) (last : WrittenKey) :
    ∃ front, whole (init ++ [last]) = front ++ last.text := by
  cases init with
  | nil => exact ⟨[], List.append_nil _⟩
  | cons k rest =>
      refine ⟨k.text ++ (behind rest ++ if last.dot then ['.'] else []), ?_⟩
      simp [whole, behind]

/-- Where a key is the first, no blank is in front of it. -/
theorem isBlank_head {k : WrittenKey} {c : Char}
    (h : k.form = .dotted → ∀ c ∈ k.key.toList.head?, Text.isBlank c = false)
    (hc : c ∈ k.text.head?) : Text.isBlank c = false := by
  by_cases hForm : k.form = .dotted
  · exact h hForm c (text_dotted hForm ▸ hc)
  · obtain ⟨rest, hText⟩ := exists_text_eq_bracket hForm
    rw [hText] at hc
    cases hc
    decide

/-- Where a key is the last, no blank is behind it. -/
theorem isBlank_getLast {k : WrittenKey} {c : Char}
    (h : k.form = .dotted → ∀ c ∈ k.key.toList.getLast?, Text.isBlank c = false)
    (hc : c ∈ k.text.getLast?) : Text.isBlank c = false := by
  cases hForm : k.form with
  | dotted => exact h hForm c (text_dotted hForm ▸ hc)
  | bare =>
      have hText : k.text = ('[' :: k.key.toList) ++ [']'] := text_bare hForm
      rw [hText, List.getLast?_concat] at hc
      cases hc
      decide
  | quoted quote =>
      have hText : k.text = ('[' :: quote :: (k.key.toList ++ [quote])) ++ [']'] := by
        simp [text_quoted hForm]
      rw [hText, List.getLast?_concat] at hc
      cases hc
      decide

end WrittenKey

/-- A path as it is written: at least one key, each in a form that can express it, dots where
they are needed, and no blank at an end that could be taken for one around the path. -/
structure WrittenPath where
  init : List WrittenKey
  last : WrittenKey
  joined : (init ++ [last]).IsChain WrittenKey.Joins
  opens : ∀ k ∈ (init ++ [last]).head?, k.form = .dotted →
    ∀ c ∈ k.key.toList.head?, Text.isBlank c = false
  ends : last.form = .dotted → ∀ c ∈ last.key.toList.getLast?, Text.isBlank c = false

namespace WrittenPath

def text (p : WrittenPath) : String :=
  String.ofList (WrittenKey.whole (p.init ++ [p.last]))

def keys (p : WrittenPath) : List String :=
  p.init.map WrittenKey.key ++ [p.last.key]

/-- There is nothing to trim about a path. -/
theorem trim_text (p : WrittenPath) : Text.trim p.text.toList = p.text.toList := by
  rw [text, String.toList_ofList, Text.trim_eq_self_iff]
  constructor
  · intro c hc
    obtain ⟨k, rest, hKeys⟩ := List.exists_cons_of_ne_nil (List.append_ne_nil_of_right_ne_nil
      p.init (List.cons_ne_nil p.last []))
    obtain ⟨d, others, hText, -⟩ := k.exists_text_eq_cons
    have hOpens := p.opens
    rw [hKeys] at hc hOpens
    refine WrittenKey.isBlank_head (hOpens k rfl) ?_
    simpa [WrittenKey.whole, hText] using hc
  · intro c hc
    obtain ⟨d, others, hText, -⟩ := p.last.exists_text_eq_cons
    obtain ⟨front, hWhole⟩ := WrittenKey.exists_whole_eq_append p.init p.last
    rw [hWhole, List.getLast?_append_of_ne_nil _ (by simp [hText])] at hc
    exact WrittenKey.isBlank_getLast p.ends hc

/-- The keys of a path are those it was written from. -/
theorem pathSegments_text (p : WrittenPath) : pathSegments p.text = p.keys := by
  have hKeys := WrittenKey.pathKeys_whole p.joined
  rw [List.map_append, List.map_singleton] at hKeys
  unfold pathSegments
  rw [trim_text, text, String.toList_ofList, hKeys, keys]
  split
  · next hNone => exact absurd hNone (by simp)
  · rfl

end WrittenPath

/-! Following keys. -/

theorem pathSegments_ne_nil (path : String) : pathSegments path ≠ [] := by
  unfold pathSegments
  split
  · exact List.cons_ne_nil _ _
  · next h => exact h

/-- Keys are followed one after the other; only the last of them may be a length. -/
theorem Data.follow?_concat (v : Data) (init : List String) (last : String) :
    v.follow? (init ++ [last]) = (init.foldlM child? v).bind (·.lastChild? last) := by
  induction init generalizing v with
  | nil => rfl
  | cons key rest ih =>
      obtain ⟨next, later, hRest⟩ := List.exists_cons_of_ne_nil
        (List.append_ne_nil_of_right_ne_nil rest (List.cons_ne_nil last []))
      rw [List.cons_append, hRest, follow?, ← hRest, List.foldlM_cons]
      cases v.child? key with
      | none => rfl
      | some part => exact ih part

/-- The parameters are followed into as an object of them is. -/
theorem Bag.lookup?_eq_get? (bag : Bag) (path : String) :
    bag.lookup? path = (Data.object bag).get? path := by
  unfold lookup? Data.get?
  split
  · next hNone => exact absurd hNone (pathSegments_ne_nil path)
  · next name rest hKeys =>
    rw [hKeys]
    cases rest with
    | nil =>
        cases hName : bag.get? name <;> simp [Data.follow?, Data.lastChild?, Data.child?, hName]
    | cons next later => rfl

/-- The spelling of a path does not matter. However its keys are written, cutting it gives these
keys, and what it leads to is found in as many steps: from a value, or from parameters, into which
every path at all leads as it does into the object of them. -/
theorem WrittenPath.leads_by_keys (p : WrittenPath) :
    pathSegments p.text = p.keys ∧
    (∀ v : Data, v.get? p.text =
      ((p.init.map WrittenKey.key).foldlM Data.child? v).bind (·.lastChild? p.last.key)) ∧
    (∀ bag : Bag, bag.lookup? p.text =
      ((p.init.map WrittenKey.key).foldlM Data.child? (.object bag)).bind
        (·.lastChild? p.last.key)) ∧
    ∀ (bag : Bag) (path : String), bag.lookup? path = (Data.object bag).get? path := by
  have hGet (v : Data) : v.get? p.text =
      ((p.init.map WrittenKey.key).foldlM Data.child? v).bind (·.lastChild? p.last.key) := by
    rw [Data.get?, p.pathSegments_text, keys, Data.follow?_concat]
  refine ⟨p.pathSegments_text, hGet, fun bag => ?_, Bag.lookup?_eq_get?⟩
  rw [Bag.lookup?_eq_get?, hGet]

/-- A path in which the ways to write a key are mixed. -/
def mixedPath : WrittenPath where
  init := [⟨false, .dotted, "users", by decide⟩, ⟨false, .bare, "0", by decide⟩,
    ⟨true, .quoted '"', "a.b]", by decide⟩]
  last := ⟨false, .dotted, "length", by decide⟩
  joined := by decide
  opens := by
    rintro _ ⟨⟩ - _ ⟨⟩
    decide
  ends := by
    rintro - _ ⟨⟩
    decide

theorem mixedPath_leads_by_keys :
    mixedPath.text = "users[0].[\"a.b]\"]length" ∧
    pathSegments mixedPath.text = ["users", "0", "a.b]", "length"] ∧
    Bag.lookup? [("users", .array [.object [("a.b]", .array [.null, .null])]])] mixedPath.text =
      some (.ofInt 2) :=
  ⟨by decide, mixedPath.leads_by_keys.1, mixedPath.leads_by_keys.2.2.1 _⟩

end HtmlTemplate
