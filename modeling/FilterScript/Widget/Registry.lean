import FilterScript.Widget.Basic

/-
The registry of widgets.

The host stores values in it and scripts read them; scripts only leave a mark of which run declared
a widget last.  Entries outlive runs, so that a control keeps its place when a script is edited and
run again.
-/
namespace FilterScript.Widget

/-- What is known of one widget. -/
structure Entry where
  /-- The value that the host reported last. -/
  value : Option Value
  /-- The run that declared the widget last. -/
  declaredIn : Option Nat
deriving DecidableEq, Repr

/-- The widgets that are known, each name once. -/
structure Registry where
  entries : List (String × Entry)
deriving Repr

namespace Registry

/-- The registry that knows no widget. -/
def empty : Registry := ⟨[]⟩

/-- Changes the entry of a name, which is made where there is none. -/
def adjust (name : String) (f : Entry → Entry) :
    List (String × Entry) → List (String × Entry)
  | [] => [(name, f ⟨none, none⟩)]
  | (n, e) :: rest => if n = name then (n, f e) :: rest else (n, e) :: adjust name f rest

/-- What is known of a name. -/
def entry? (r : Registry) (name : String) : Option Entry := r.entries.lookup name

/-- Stores a value that the host reported. -/
def update (r : Registry) (name : String) (value : Value) : Registry :=
  ⟨adjust name (fun e => { e with value := some value }) r.entries⟩

/-- Marks a widget as declared by a run. -/
def declare (r : Registry) (name : String) (run : Nat) : Registry :=
  ⟨adjust name (fun e => { e with declaredIn := some run }) r.entries⟩

/-- The value that the host reported for a name. -/
def value? (r : Registry) (name : String) : Option Value := (r.entry? name).bind (·.value)

/-- Whether a box is checked; it is not while the host has reported no box. -/
def checkbox (r : Registry) (name : String) : Bool :=
  match r.value? name with
  | some (.checkbox b) => b
  | _ => false

/-- The option that is selected: the reported one if it is still offered, else the first. -/
def radio (r : Registry) (name : String) (options : List String) : Option String :=
  match r.value? name with
  | some (.radio o) => if options.contains o then some o else options.head?
  | _ => options.head?

/-- The place of a slider, which is `initial` while the host has reported none. -/
def slider (r : Registry) (name : String) (initial : Single) : Single :=
  match r.value? name with
  | some (.slider x) => x
  | _ => initial

/-- Whether the last declaration of an entry was not by `run`. -/
def isOrphan (run : Nat) (e : Entry) : Bool := e.declaredIn ≠ some run

/-- The names that `run` did not declare, in order. -/
def orphans (r : Registry) (run : Nat) : List String :=
  ((r.entries.filter fun (_, e) => isOrphan run e).map (·.1)).mergeSort

/-- Forgets the widgets that `run` did not declare. -/
def prune (r : Registry) (run : Nat) : Registry :=
  ⟨r.entries.filter fun (_, e) => !isOrphan run e⟩

/-- Forgets a widget. -/
def erase (r : Registry) (name : String) : Registry :=
  ⟨r.entries.filter fun (n, _) => n ≠ name⟩

/-- Takes the widgets that `run` did not declare out of the registry, one after the other, and answers
their names. -/
def takeOrphans (r : Registry) (run : Nat) : List String × Registry :=
  let names := r.orphans run
  (names, names.foldl erase r)

/-- How many widgets are known. -/
def size (r : Registry) : Nat := r.entries.length

/-- Whether no widget is known. -/
def isEmpty (r : Registry) : Bool := r.entries.isEmpty

end Registry

end FilterScript.Widget
