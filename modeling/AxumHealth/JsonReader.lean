import AxumHealth.Json
import Mathlib.Data.List.TakeWhile

/-!
# Reading JSON texts

A reader of the compact texts that `Value.render` writes, and the round trip: it
reads every one of them back, so a text is the text of one value only.  The reader
takes a bound on the number of calls, and the length of the text is always enough.

The decoders take a value apart again, field by field; each has the law that it undoes
the writer of its kind of field.
-/

namespace Json

/-! ## Numbers and strings -/

def readNumber (cs : List Char) : Option (Nat × List Char) :=
  let digits := cs.takeWhile Char.isDigit
  if digits.isEmpty then none
  else some (Nat.ofDigitChars 10 digits 0, cs.dropWhile Char.isDigit)

/-- The value of a digit of base 16, as `hexDigits` writes it. -/
def hexValue (c : Char) : Option Nat :=
  if c.isDigit then some (c.toNat - '0'.toNat)
  else if 'a' ≤ c ∧ c ≤ 'f' then some (c.toNat - 'a'.toNat + 10)
  else none

/-- The character whose code has these digits. -/
def unescape : List Char → Option Char
  | [a, b, c, d] => do
    let a ← hexValue a
    let b ← hexValue b
    let c ← hexValue c
    let d ← hexValue d
    pure (Char.ofNat (((a * 16 + b) * 16 + c) * 16 + d))
  | _ => none

/-- The character that a backslash and `c` stand for. -/
def simpleEscape (c : Char) : Option Char :=
  if c = '"' ∨ c = '\\' then some c
  else if c = 'b' then some (Char.ofNat 8)
  else if c = 't' then some (Char.ofNat 9)
  else if c = 'n' then some (Char.ofNat 10)
  else if c = 'f' then some (Char.ofNat 12)
  else if c = 'r' then some (Char.ofNat 13)
  else none

/-- The rest of a string, after its opening quote. -/
def readString : List Char → Option (List Char × List Char)
  | [] => none
  | '"' :: rest => some ([], rest)
  | '\\' :: 'u' :: a :: b :: c :: d :: rest =>
    (unescape [a, b, c, d]).bind fun char => (readString rest).map fun p => (char :: p.1, p.2)
  | '\\' :: c :: rest =>
    (simpleEscape c).bind fun char => (readString rest).map fun p => (char :: p.1, p.2)
  | c :: rest => (readString rest).map fun p => (c :: p.1, p.2)

/-! ## Values -/

/-- The rest of a text after a word. -/
def readWord : List Char → List Char → Option (List Char)
  | [], cs => some cs
  | w :: word, c :: cs => if w = c then readWord word cs else none
  | _ :: _, [] => none

/-- The name of a field, with the colon after it. -/
def readName : List Char → Option (String × List Char)
  | '"' :: cs =>
    match readString cs with
    | some (name, ':' :: rest) => some (String.ofList name, rest)
    | _ => none
  | _ => none

mutual

def readValue : Nat → List Char → Option (Value × List Char)
  | 0, _ => none
  | _, [] => none
  | fuel + 1, c :: cs =>
    if c = 'n' then (readWord ['u', 'l', 'l'] cs).map fun rest => (.null, rest)
    else if c = 't' then (readWord ['r', 'u', 'e'] cs).map fun rest => (.bool true, rest)
    else if c = 'f' then (readWord ['a', 'l', 's', 'e'] cs).map fun rest => (.bool false, rest)
    else if c = '"' then (readString cs).map fun p => (.string (String.ofList p.1), p.2)
    else if c = '[' then
      if cs.head? = some ']' then some (.array [], cs.tail)
      else (readItems fuel cs).map fun p => (.array p.1, p.2)
    else if c = '\x7b' then
      if cs.head? = some '\x7d' then some (.object [], cs.tail)
      else (readFields fuel cs).map fun p => (.object p.1, p.2)
    else (readNumber (c :: cs)).map fun p => (.number p.1, p.2)

/-- The items of an array, with the bracket that closes it. -/
def readItems : Nat → List Char → Option (List Value × List Char)
  | 0, _ => none
  | fuel + 1, cs =>
    match readValue fuel cs with
    | some (v, ']' :: rest) => some ([v], rest)
    | some (v, ',' :: rest) => (readItems fuel rest).map fun p => (v :: p.1, p.2)
    | _ => none

/-- The fields of an object, with the brace that closes it. -/
def readFields : Nat → List Char → Option (List (String × Value) × List Char)
  | 0, _ => none
  | fuel + 1, cs =>
    (readName cs).bind fun p =>
      match readValue fuel p.2 with
      | some (v, '\x7d' :: rest) => some ([(p.1, v)], rest)
      | some (v, ',' :: rest) => (readFields fuel rest).map fun q => ((p.1, v) :: q.1, q.2)
      | _ => none

end

/-- Read a whole text. -/
def parse (s : String) : Option Value :=
  match readValue s.toList.length s.toList with
  | some (v, []) => some v
  | _ => none

/-! ## The round trip -/

theorem readWord_append (word rest : List Char) : readWord word (word ++ rest) = some rest := by
  induction word with
  | nil => rfl
  | cons c word ih =>
    show (if c = c then readWord word (word ++ rest) else none) = some rest
    rw [if_pos rfl, ih]

/-- What follows a value does not go on with a digit. -/
def NoDigit (rest : List Char) : Prop := ∀ c, rest.head? = some c → c.isDigit = false

theorem takeWhile_append_digits {digits rest : List Char} (hdigits : ∀ c ∈ digits, c.isDigit = true)
    (hrest : NoDigit rest) :
    (digits ++ rest).takeWhile Char.isDigit = digits ∧
      (digits ++ rest).dropWhile Char.isDigit = rest := by
  induction digits with
  | nil =>
    cases rest with
    | nil => exact ⟨rfl, rfl⟩
    | cons c rest =>
      have hc := hrest c rfl
      simp [hc]
  | cons c digits ih =>
    have hc := hdigits c List.mem_cons_self
    obtain ⟨htake, hdrop⟩ := ih fun d hd => hdigits d (List.mem_cons_of_mem _ hd)
    simp [hc, htake, hdrop]

theorem readNumber_toDigits (n : Nat) {rest : List Char} (hrest : NoDigit rest) :
    readNumber (Nat.toDigits 10 n ++ rest) = some (n, rest) := by
  obtain ⟨htake, hdrop⟩ := takeWhile_append_digits
    (fun c hc => Nat.isDigit_of_mem_toDigits (b := 10) (by decide) (by decide) hc) hrest
  unfold readNumber
  rw [htake, hdrop, if_neg (by simp [Nat.toDigits_ne_nil]), Nat.ofDigitChars_ten_toDigits]

/-- The control characters, which are written with four digits. -/
theorem unescape_hexDigits : ∀ n < 32, unescape (hexDigits n) = some (Char.ofNat n) := by
  decide

theorem readString_unescape {code : List Char} {char : Char} (h : unescape code = some char)
    (rest : List Char) :
    readString ('\\' :: 'u' :: (code ++ rest)) =
      (readString rest).map fun p => (char :: p.1, p.2) := by
  match code, h with
  | [a, b, c, d], h =>
    show readString ('\\' :: 'u' :: a :: b :: c :: d :: rest) = _
    rw [readString, h]
    rfl

theorem readString_simple {c char : Char} (h : simpleEscape c = some char) (rest : List Char) :
    readString ('\\' :: c :: rest) = (readString rest).map fun p => (char :: p.1, p.2) := by
  have hu : c ≠ 'u' := by
    intro heq
    subst heq
    simp [simpleEscape] at h
  rw [readString]
  · rw [h]
    rfl
  · intro a b c d rest' heq
    exact absurd heq hu

theorem readString_escape (c : Char) (rest : List Char) :
    readString (escape c ++ rest) = (readString rest).map fun p => (c :: p.1, p.2) := by
  have hchar : ∀ n, c.toNat = n → c = Char.ofNat n := by
    intro n hn
    rw [← hn, Char.ofNat_toNat]
  unfold escape
  by_cases hquote : c = '"'
  · rw [if_pos hquote]
    exact readString_simple (by simp [simpleEscape, hquote]) rest
  by_cases hslash : c = '\\'
  · rw [if_neg hquote, if_pos hslash]
    exact readString_simple (by simp [simpleEscape, hslash]) rest
  by_cases hplain : 32 ≤ c.toNat
  · rw [if_neg hquote, if_neg hslash, if_pos hplain, List.singleton_append, readString]
    · exact hquote
    · intro a b d e rest' heq _
      exact absurd heq hslash
    · intro d rest' heq _
      exact absurd heq hslash
  rw [if_neg hquote, if_neg hslash, if_neg hplain]
  by_cases h8 : c.toNat = 8
  · rw [if_pos h8, hchar 8 h8]
    exact readString_simple rfl rest
  by_cases h9 : c.toNat = 9
  · rw [if_neg h8, if_pos h9, hchar 9 h9]
    exact readString_simple rfl rest
  by_cases h10 : c.toNat = 10
  · rw [if_neg h8, if_neg h9, if_pos h10, hchar 10 h10]
    exact readString_simple rfl rest
  by_cases h12 : c.toNat = 12
  · rw [if_neg h8, if_neg h9, if_neg h10, if_pos h12, hchar 12 h12]
    exact readString_simple rfl rest
  by_cases h13 : c.toNat = 13
  · rw [if_neg h8, if_neg h9, if_neg h10, if_neg h12, if_pos h13, hchar 13 h13]
    exact readString_simple rfl rest
  rw [if_neg h8, if_neg h9, if_neg h10, if_neg h12, if_neg h13]
  have hcode := unescape_hexDigits c.toNat (by omega)
  rw [← hchar c.toNat rfl] at hcode
  exact readString_unescape hcode rest

theorem readString_flatMap (cs rest : List Char) :
    readString (cs.flatMap escape ++ '"' :: rest) = some (cs, rest) := by
  induction cs with
  | nil => rfl
  | cons c cs ih =>
    rw [List.flatMap_cons, List.append_assoc, readString_escape, ih]
    rfl

theorem toList_quote (s : String) :
    (quote s).toList = '"' :: (s.toList.flatMap escape ++ ['"']) := by
  simp [quote]

/-! ## The texts of values -/

theorem toList_renderItems (v w : Value) (items : List Value) :
    (renderItems (v :: w :: items)).toList =
      v.render.toList ++ ',' :: (renderItems (w :: items)).toList := by
  simp [renderItems]

theorem toList_renderFields (name : String) (v : Value) (field : String × Value)
    (fields : List (String × Value)) :
    (renderFields ((name, v) :: field :: fields)).toList =
      (quote name).toList ++ ':' :: (v.render.toList ++
        ',' :: (renderFields (field :: fields)).toList) := by
  simp [renderFields]

theorem noDigit_cons {c : Char} (h : c.isDigit = false) (rest : List Char) :
    NoDigit (c :: rest) := by
  intro c' hc
  obtain rfl := Option.some.inj hc
  exact h

theorem toDigits_cons (n : Nat) :
    ∃ c cs, Nat.toDigits 10 n = c :: cs ∧ c.isDigit = true := by
  cases hn : Nat.toDigits 10 n with
  | nil => exact absurd hn Nat.toDigits_ne_nil
  | cons c cs =>
    refine ⟨c, cs, rfl, Nat.isDigit_of_mem_toDigits (b := 10) (n := n) (by decide) (by decide) ?_⟩
    rw [hn]
    exact List.mem_cons_self

theorem toList_number (n : Nat) : (Value.number n).render.toList = Nat.toDigits 10 n := by
  simp [Value.render]

/-- No text of a value starts with a bracket or a brace that closes. -/
theorem head_render (v : Value) :
    ∃ c cs, v.render.toList = c :: cs ∧ c ≠ ']' ∧ c ≠ '\x7d' := by
  cases v with
  | null => exact ⟨'n', _, rfl, by decide, by decide⟩
  | bool b =>
    cases b with
    | true => exact ⟨'t', _, rfl, by decide, by decide⟩
    | false => exact ⟨'f', _, rfl, by decide, by decide⟩
  | number n =>
    obtain ⟨c, cs, hn, hdigit⟩ := toDigits_cons n
    refine ⟨c, cs, (toList_number n).trans hn, ?_, ?_⟩
    · intro heq
      rw [heq] at hdigit
      revert hdigit
      decide
    · intro heq
      rw [heq] at hdigit
      revert hdigit
      decide
  | string s => exact ⟨'"', _, toList_quote s, by decide, by decide⟩
  | array items =>
    refine ⟨'[', (renderItems items).toList ++ [']'], ?_, by decide, by decide⟩
    simp [Value.render]
  | object fields =>
    refine ⟨'\x7b', (renderFields fields).toList ++ ['\x7d'], ?_, by decide, by decide⟩
    simp [Value.render]

theorem readValue_number (n fuel : Nat) {rest : List Char} (hrest : NoDigit rest) :
    readValue (fuel + 1) ((Value.number n).render.toList ++ rest) = some (.number n, rest) := by
  have hread := readNumber_toDigits n hrest
  obtain ⟨c, cs, hn, hdigit⟩ := toDigits_cons n
  have hne : ∀ d : Char, d.isDigit = false → c ≠ d := by
    intro d hd heq
    rw [heq, hd] at hdigit
    cases hdigit
  rw [hn] at hread
  rw [toList_number, hn, List.cons_append, readValue, if_neg (hne _ (by decide)),
    if_neg (hne _ (by decide)), if_neg (hne _ (by decide)), if_neg (hne _ (by decide)),
    if_neg (hne _ (by decide)), if_neg (hne _ (by decide))]
  show (readNumber (c :: cs ++ rest)).map _ = _
  rw [hread]
  rfl

theorem readValue_string (s : String) (fuel : Nat) (rest : List Char) :
    readValue (fuel + 1) ((quote s).toList ++ rest) = some (.string s, rest) := by
  rw [toList_quote, List.cons_append, List.append_assoc, readValue, if_neg (by decide),
    if_neg (by decide), if_neg (by decide), if_pos rfl]
  show (readString (s.toList.flatMap escape ++ '"' :: rest)).map _ = _
  rw [readString_flatMap, Option.map_some, String.ofList_toList]

theorem readValue_array {fuel : Nat} {cs rest : List Char} {items : List Value}
    (hhead : cs.head? ≠ some ']') (h : readItems fuel cs = some (items, rest)) :
    readValue (fuel + 1) ('[' :: cs) = some (.array items, rest) := by
  rw [readValue, if_neg (by decide), if_neg (by decide), if_neg (by decide), if_neg (by decide),
    if_pos rfl, if_neg hhead, h]
  rfl

theorem readValue_object {fuel : Nat} {cs rest : List Char} {fields : List (String × Value)}
    (hhead : cs.head? ≠ some '\x7d') (h : readFields fuel cs = some (fields, rest)) :
    readValue (fuel + 1) ('\x7b' :: cs) = some (.object fields, rest) := by
  rw [readValue, if_neg (by decide), if_neg (by decide), if_neg (by decide), if_neg (by decide),
    if_neg (by decide), if_pos rfl, if_neg hhead, h]
  rfl

theorem readItems_last {fuel : Nat} {cs rest : List Char} {v : Value}
    (h : readValue fuel cs = some (v, ']' :: rest)) :
    readItems (fuel + 1) cs = some ([v], rest) := by
  rw [readItems, h]
  rfl

theorem readItems_cons {fuel : Nat} {cs cs' rest : List Char} {v : Value} {items : List Value}
    (h : readValue fuel cs = some (v, ',' :: cs'))
    (hitems : readItems fuel cs' = some (items, rest)) :
    readItems (fuel + 1) cs = some (v :: items, rest) := by
  rw [readItems, h]
  show (readItems fuel cs').map _ = _
  rw [hitems]
  rfl

theorem readName_quote (name : String) (cs : List Char) :
    readName ((quote name).toList ++ ':' :: cs) = some (name, cs) := by
  have hname := readString_flatMap name.toList (':' :: cs)
  rw [toList_quote, List.cons_append, List.append_assoc, readName, List.singleton_append, hname]
  show some (String.ofList name.toList, cs) = _
  rw [String.ofList_toList]

theorem readFields_last {fuel : Nat} {cs rest : List Char} {name : String} {v : Value}
    (h : readValue fuel cs = some (v, '\x7d' :: rest)) :
    readFields (fuel + 1) ((quote name).toList ++ ':' :: cs) = some ([(name, v)], rest) := by
  rw [readFields, readName_quote, Option.bind_some, h]
  rfl

theorem readFields_cons {fuel : Nat} {cs cs' rest : List Char} {name : String} {v : Value}
    {fields : List (String × Value)} (h : readValue fuel cs = some (v, ',' :: cs'))
    (hfields : readFields fuel cs' = some (fields, rest)) :
    readFields (fuel + 1) ((quote name).toList ++ ':' :: cs) =
      some ((name, v) :: fields, rest) := by
  rw [readFields, readName_quote, Option.bind_some, h]
  show (readFields fuel cs').map _ = _
  rw [hfields]
  rfl

theorem toList_array (items : List Value) :
    (Value.array items).render.toList = '[' :: ((renderItems items).toList ++ [']']) := by
  simp [Value.render]

theorem toList_object (fields : List (String × Value)) :
    (Value.object fields).render.toList =
      '\x7b' :: ((renderFields fields).toList ++ ['\x7d']) := by
  simp [Value.render]

theorem toList_renderField (name : String) (v : Value) :
    (renderFields [(name, v)]).toList = (quote name).toList ++ ':' :: v.render.toList := by
  simp [renderFields]

/-- What the calls with a bound of `fuel` read back. -/
structure Reads (fuel : Nat) : Prop where
  value : ∀ v rest, v.render.toList.length ≤ fuel → NoDigit rest →
    readValue fuel (v.render.toList ++ rest) = some (v, rest)
  items : ∀ v items rest, (renderItems (v :: items)).toList.length < fuel →
    readItems fuel ((renderItems (v :: items)).toList ++ ']' :: rest) = some (v :: items, rest)
  fields : ∀ field fields rest, (renderFields (field :: fields)).toList.length < fuel →
    readFields fuel ((renderFields (field :: fields)).toList ++ '\x7d' :: rest) =
      some (field :: fields, rest)

theorem reads_zero : Reads 0 where
  value v rest h _ := by
    obtain ⟨c, cs, hv, -⟩ := head_render v
    rw [hv] at h
    exact absurd h (Nat.not_succ_le_zero _)
  items v items rest h := absurd h (Nat.not_lt_zero _)
  fields field fields rest h := absurd h (Nat.not_lt_zero _)

theorem head?_append_ne {c : Char} {cs rest : List Char} {d : Char} (h : cs = c :: rest)
    (hne : c ≠ d) (cs' : List Char) : (cs ++ cs').head? ≠ some d := by
  rw [h]
  intro heq
  exact hne (Option.some.inj heq)

theorem Reads.array {fuel : Nat} (h : Reads fuel) (items : List Value) (rest : List Char)
    (hlength : (Value.array items).render.toList.length ≤ fuel + 1) :
    readValue (fuel + 1) ((Value.array items).render.toList ++ rest) =
      some (.array items, rest) := by
  rw [toList_array, List.length_cons, List.length_append, List.length_singleton] at hlength
  rw [toList_array, List.cons_append, List.append_assoc, List.singleton_append]
  cases items with
  | nil => rfl
  | cons v items =>
    refine readValue_array ?_ (h.items v items rest (by omega))
    obtain ⟨c, cs, hv, hc, -⟩ := head_render v
    have hitems : ∃ cs', (renderItems (v :: items)).toList = c :: cs' := by
      cases items with
      | nil => exact ⟨cs, hv⟩
      | cons w items => exact ⟨_, by rw [toList_renderItems, hv, List.cons_append]⟩
    obtain ⟨cs', hitems⟩ := hitems
    exact head?_append_ne hitems hc _

theorem Reads.object {fuel : Nat} (h : Reads fuel) (fields : List (String × Value))
    (rest : List Char) (hlength : (Value.object fields).render.toList.length ≤ fuel + 1) :
    readValue (fuel + 1) ((Value.object fields).render.toList ++ rest) =
      some (.object fields, rest) := by
  rw [toList_object, List.length_cons, List.length_append, List.length_singleton] at hlength
  rw [toList_object, List.cons_append, List.append_assoc, List.singleton_append]
  cases fields with
  | nil => rfl
  | cons field fields =>
    refine readValue_object ?_ (h.fields field fields rest (by omega))
    have hfields : ∃ cs, (renderFields (field :: fields)).toList = '"' :: cs := by
      obtain ⟨name, v⟩ := field
      cases fields with
      | nil => exact ⟨_, by rw [toList_renderField, toList_quote, List.cons_append]⟩
      | cons field fields =>
        exact ⟨_, by rw [toList_renderFields, toList_quote, List.cons_append]⟩
    obtain ⟨cs, hfields⟩ := hfields
    exact head?_append_ne hfields (by decide) _

theorem reads_succ {fuel : Nat} (h : Reads fuel) : Reads (fuel + 1) := by
  constructor
  · intro v rest hlength hrest
    cases v with
    | null =>
      show readValue (fuel + 1) ('n' :: (['u', 'l', 'l'] ++ rest)) = _
      rw [readValue, if_pos rfl, readWord_append]
      rfl
    | bool b =>
      cases b with
      | true =>
        show readValue (fuel + 1) ('t' :: (['r', 'u', 'e'] ++ rest)) = _
        rw [readValue, if_neg (by decide), if_pos rfl, readWord_append]
        rfl
      | false =>
        show readValue (fuel + 1) ('f' :: (['a', 'l', 's', 'e'] ++ rest)) = _
        rw [readValue, if_neg (by decide), if_neg (by decide), if_pos rfl, readWord_append]
        rfl
    | number n => exact readValue_number n fuel hrest
    | string s => exact readValue_string s fuel rest
    | array items => exact h.array items rest hlength
    | object fields => exact h.object fields rest hlength
  · intro v items rest hlength
    cases items with
    | nil =>
      exact readItems_last (h.value v _ (Nat.lt_succ_iff.mp hlength)
        (noDigit_cons (by decide) rest))
    | cons w items =>
      rw [toList_renderItems, List.length_append, List.length_cons] at hlength
      rw [toList_renderItems, List.append_assoc, List.cons_append]
      exact readItems_cons (h.value v _ (by omega) (noDigit_cons (by decide) _))
        (h.items w items rest (by omega))
  · intro field fields rest hlength
    obtain ⟨name, v⟩ := field
    cases fields with
    | nil =>
      rw [toList_renderField, List.length_append, List.length_cons] at hlength
      rw [toList_renderField, List.append_assoc, List.cons_append]
      exact readFields_last (h.value v _ (by omega) (noDigit_cons (by decide) rest))
    | cons field fields =>
      rw [toList_renderFields, List.length_append, List.length_cons, List.length_append,
        List.length_cons] at hlength
      rw [toList_renderFields, List.append_assoc, List.cons_append, List.append_assoc,
        List.cons_append]
      exact readFields_cons (h.value v _ (by omega) (noDigit_cons (by decide) _))
        (h.fields field fields rest (by omega))

theorem reads (fuel : Nat) : Reads fuel := by
  induction fuel with
  | zero => exact reads_zero
  | succ fuel ih => exact reads_succ ih

/-- The reader reads back every text that is written. -/
theorem parse_render (v : Value) : parse v.render = some v := by
  have hread := (reads v.render.toList.length).value v [] (Nat.le_refl _)
    (fun c hc => by cases hc)
  rw [List.append_nil] at hread
  unfold parse
  rw [hread]

/-! ## Decoding -/

namespace Value

variable {α : Type} {decode : Value → Option α} {encode : α → Value}

def string? : Value → Option String
  | string s => some s
  | _ => none

/-- A number below a bound. -/
def number? (bound : Nat) (ofNat : Nat → α) : Value → Option α
  | number n => if n < bound then some (ofNat n) else none
  | _ => none

/-- All items of an array. -/
def items? (decode : Value → Option α) : Value → Option (List α)
  | array items => items.mapM decode
  | _ => none

/-- A field that is always there. -/
def required? (v : Value) (name : String) (decode : Value → Option α) : Option α :=
  (v.field? name).bind decode

/-- A field that is left out when there is nothing to write. -/
def optional? (v : Value) (name : String) (decode : Value → Option α) : Option (Option α) :=
  match v.field? name with
  | some field => (decode field).map some
  | none => some none

theorem string?_string (s : String) : (string s).string? = some s := rfl

theorem number?_toNat {bound : Nat} {ofNat : Nat → α} {toNat : α → Nat}
    (hlt : ∀ a, toNat a < bound) (hofNat : ∀ a, ofNat (toNat a) = a) (a : α) :
    (number (toNat a)).number? bound ofNat = some a := by
  show (if toNat a < bound then some (ofNat (toNat a)) else none) = some a
  rw [if_pos (hlt a), hofNat]

theorem mapM_map_eq_some {β : Type} {encode : α → β} {decode : β → Option α} {as : List α}
    (h : ∀ a ∈ as, decode (encode a) = some a) : (as.map encode).mapM decode = some as := by
  induction as with
  | nil => rfl
  | cons a as ih =>
    have hhead := h a List.mem_cons_self
    have htail := ih fun b hb => h b (List.mem_cons_of_mem a hb)
    rw [List.map_cons, List.mapM_cons, hhead, htail]
    rfl

theorem items?_map (h : ∀ a, decode (encode a) = some a) (as : List α) :
    (array (as.map encode)).items? decode = some as :=
  mapM_map_eq_some fun a _ => h a

theorem required?_eq {v : Value} {name : String} {a : α}
    (h : ∀ a, decode (encode a) = some a) (hfield : v.field? name = some (encode a)) :
    v.required? name decode = some a := by
  rw [required?, hfield, Option.bind_some, h]

theorem optional?_eq {v : Value} {name : String} {a : Option α}
    (h : ∀ a, decode (encode a) = some a) (hfield : v.field? name = a.map encode) :
    v.optional? name decode = some a := by
  unfold optional?
  rw [hfield]
  cases a with
  | none => rfl
  | some a =>
    show (decode (encode a)).map some = some (some a)
    rw [h a]
    rfl

end Value

end Json
