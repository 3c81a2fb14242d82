import Mathlib.Init

/-!
# JSON values

`serde_json::Value` with insertion-ordered objects, the compact text `serde_json`
writes, and the reading of fields.  Numbers are the unsigned integers the program serialises.
-/

namespace Json

inductive Value
  | null
  | bool (b : Bool)
  | number (n : Nat)
  | string (s : String)
  | array (items : List Value)
  | object (fields : List (String × Value))

/-- A field left out when there is nothing to write
(`skip_serializing_if = "Option::is_none"`). -/
def optionalField {α : Type} (name : String) (toValue : α → Value) :
    Option α → List (String × Value)
  | some a => [(name, toValue a)]
  | none => []

def hexDigits (n : Nat) : List Char :=
  let digits := Nat.toDigits 16 n
  List.replicate (4 - digits.length) '0' ++ digits

/-- A character inside a JSON text. -/
def escape (c : Char) : List Char :=
  if c = '"' then ['\\', '"']
  else if c = '\\' then ['\\', '\\']
  else if 32 ≤ c.toNat then [c]
  else if c.toNat = 8 then ['\\', 'b']
  else if c.toNat = 9 then ['\\', 't']
  else if c.toNat = 10 then ['\\', 'n']
  else if c.toNat = 12 then ['\\', 'f']
  else if c.toNat = 13 then ['\\', 'r']
  else ['\\', 'u'] ++ hexDigits c.toNat

def quote (s : String) : String :=
  String.ofList (['"'] ++ s.toList.flatMap escape ++ ['"'])

mutual

/-- The compact text of a value.  It stands for the writer of `serde_json`, which is not
part of the repository and writes a value without blanks, its fields in their order and its
strings with the shortest escapes.  What is concluded from a body is concluded by reading it
back (`parse_render`). -/
def Value.render : Value → String
  | .null => "null"
  | .bool true => "true"
  | .bool false => "false"
  | .number n => toString n
  | .string s => quote s
  | .array items => "[" ++ renderItems items ++ "]"
  | .object fields => "\x7b" ++ renderFields fields ++ "\x7d"

def renderItems : List Value → String
  | [] => ""
  | [v] => v.render
  | v :: rest => v.render ++ "," ++ renderItems rest

def renderFields : List (String × Value) → String
  | [] => ""
  | [(name, v)] => quote name ++ ":" ++ v.render
  | (name, v) :: rest => quote name ++ ":" ++ v.render ++ "," ++ renderFields rest

end

example : (Value.object [("status", .string "UP"), ("parts", .array [.number 1, .null])]).render =
    "\x7b\"status\":\"UP\",\"parts\":[1,null]\x7d" := by decide

/-! ## Reading -/

namespace Value

/-- The value of the first field of a name. -/
def field? (v : Value) (name : String) : Option Value :=
  match v with
  | .object fields => fields.lookup name
  | _ => none

/-- The object without the fields of a name. -/
def without (v : Value) (name : String) : Value :=
  match v with
  | .object fields => .object (fields.filter fun p => p.1 ≠ name)
  | v => v

@[simp] theorem field?_nil (name : String) : (object []).field? name = none := rfl

@[simp] theorem field?_cons (key : String) (v : Value) (fields : List (String × Value))
    (name : String) :
    (object ((key, v) :: fields)).field? name =
      if name = key then some v else (object fields).field? name := by
  by_cases h : name = key
  · simp [field?, h]
  · simp [field?, List.lookup_cons, h, beq_eq_false_iff_ne.mpr h]

@[simp] theorem field?_optionalField_append {α : Type} (key : String) (toValue : α → Value)
    (a : Option α) (fields : List (String × Value)) (name : String) :
    (object (optionalField key toValue a ++ fields)).field? name =
      if name = key then (a.map toValue).or ((object fields).field? name)
      else (object fields).field? name := by
  cases a with
  | none => simp [optionalField]
  | some a =>
    by_cases h : name = key
    · simp [optionalField, h]
    · simp [optionalField, h]

@[simp] theorem field?_optionalField {α : Type} (key : String) (toValue : α → Value)
    (a : Option α) (name : String) :
    (object (optionalField key toValue a)).field? name =
      if name = key then a.map toValue else none := by
  have h := field?_optionalField_append key toValue a [] name
  simpa using h

/-- Leaving out a field does not change the others. -/
theorem field?_without {key name : String} (h : name ≠ key) (v : Value) :
    (v.without key).field? name = v.field? name := by
  cases v with
  | object fields =>
    induction fields with
    | nil => rfl
    | cons p fields ih =>
      obtain ⟨k, v⟩ := p
      rw [field?_cons, ← ih]
      by_cases hk : k = key
      · have hname : name ≠ k := fun heq => h (heq.trans hk)
        rw [if_neg hname]
        simp [without, hk]
      · simp [without, hk]
  | null => rfl
  | bool b => rfl
  | number n => rfl
  | string s => rfl
  | array items => rfl

end Value

end Json
