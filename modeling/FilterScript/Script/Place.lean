import FilterScript.Script.Library.Collection

/-
Places inside values: what an index or a property stands for, and how a value looks after a part of
it was replaced.
-/
namespace FilterScript.Script

/-- One step into a value. -/
inductive Key where
  | item (n : Nat)
  | member (name : String)
  | char (n : Nat)
  | bit (n : Nat)
deriving DecidableEq, Repr

namespace Value

private def setBit (i : Int) (n : Nat) (b : Bool) : Int :=
  let w := Operator.word i
  let cleared := if w / 2 ^ n % 2 = 1 then w - 2 ^ n else w
  Operator.ofWord (if b then cleared + 2 ^ n else cleared)

/-- A value with the part behind some keys replaced.  Keys that lead nowhere change nothing. -/
def update : Value → List Key → Value → Value
  | _, [], v => v
  | array xs, .item n :: keys, v => array (xs.modify n fun x => update x keys v)
  | map ms, .member name :: keys, v =>
    map (setMember name (update ((ms.lookup name).getD unit) keys v) ms)
  | string s, .char n :: _, char c => string (String.ofList (s.toList.set n c))
  | int i, .bit n :: _, bool b => int (setBit i n b)
  | w, _, _ => w

/-- The fault of an index that is no integer. -/
def wantsInt (idx : Value) : Fault := .mismatch "i64" idx.kind

private def withinBits (i : Int) : Bool := -64 ≤ i ∧ i < 64

/-- The part of a value that an index stands for, and its key where it can be replaced. -/
def index (v idx : Value) : Except Fault (Option Key × Value) :=
  match v, idx with
  | array xs, int i =>
    if Library.isWithin xs.length i then
      let k := Library.place xs.length i
      .ok (some (.item k), xs.getD k unit)
    else .error (.arrayBounds xs.length i)
  | array xs, range a b closed => .ok (none, array (Library.rangePart xs a b closed))
  | array _, idx => .error (wantsInt idx)
  | map ms, string name => .ok (some (.member name), (ms.lookup name).getD unit)
  | map _, idx => .error (.mismatch "string" idx.kind)
  | string s, int i =>
    let cs := s.toList
    if Library.isWithin cs.length i then
      let k := Library.place cs.length i
      .ok (some (.char k), char (cs.getD k ' '))
    else .error (.stringBounds cs.length i)
  | string s, range a b closed =>
    .ok (none, string (String.ofList (Library.rangePart s.toList a b closed)))
  | string _, idx => .error (wantsInt idx)
  | int w, int i =>
    if withinBits i then
      let k := Library.place 64 i
      .ok (some (.bit k), bool (Operator.word w / 2 ^ k % 2 = 1))
    else .error (.bitBounds i)
  | v, idx => .error (.notIndexable (v.signature ++ " [" ++ idx.signature ++ "]"))

/-- The value of a property, with its key where it can be replaced. -/
def property (v : Value) (name : String) : Except Fault (Option Key × Value) :=
  match v with
  | map ms => .ok (some (.member name), (ms.lookup name).getD unit)
  | v =>
    let missing : Except Fault (Option Key × Value) := .error (.noProperty name v.kind false)
    if Library.properties.contains name then
      match Library.call? name [v] with
      | some (.ok e) => .ok (none, e.result)
      | some (.error text) => .error (.arithmetic text)
      | none => missing
    else missing

end Value

end FilterScript.Script
