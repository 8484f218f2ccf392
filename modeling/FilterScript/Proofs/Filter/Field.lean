/-
How changes act on a filter field by field.

A filter has ten fields, if the three parts of its transform are counted apart.  What a change does to
one field is one of four things, its `Effect` on the field: nothing, a return to the default, a new
content, or an amount that is composed onto the content.  A step of the filter is such a step in every
field (`content_edit`), and no field looks at another one.  So a field is run apart from the rest, and
it depends on the changes that address it only; and as the composition does not look back behind the
last change that settled the content, the run has the closed form `Effect.run_eq`: the amounts since
then, composed onto what was settled.
-/
import FilterScript.Filter.Basic
import Mathlib.Data.List.DropRight
import Mathlib.Logic.Function.Iterate

namespace FilterScript.Filter

/-! ### Fields -/

/-- The fields of a filter, with the parts of its transform. -/
inductive Field where
  | mask
  | operation
  | alpha
  | defaultColor
  | wrap
  | coordinates
  | repetitions
  | rotation
  | scale
  | translation
deriving DecidableEq, Repr

/-- What a field holds. -/
abbrev Field.Content : Field → Type
  | mask => Mask
  | operation => Operation
  | alpha => Single
  | defaultColor => Color
  | wrap => Bool
  | coordinates => Bool
  | repetitions => UInt32
  | rotation => Single
  | scale => Point
  | translation => Point

/-- How an amount is composed onto a field; onto most of them nothing is. -/
def Field.compose : (x : Field) → x.Content → x.Content → x.Content
  | wrap => xor
  | rotation => (· + ·)
  | scale => Point.mul
  | translation => Point.add
  | mask | operation | alpha | defaultColor | coordinates | repetitions => fun a _ => a

/-- What a filter holds in a field. -/
def content (f : Filter) : (x : Field) → x.Content
  | .mask => f.mask
  | .operation => f.operation
  | .alpha => f.alpha
  | .defaultColor => f.defaultColor
  | .wrap => f.wrap
  | .coordinates => f.coordinates
  | .repetitions => f.repetitions
  | .rotation => f.transform.rotation
  | .scale => f.transform.scale
  | .translation => f.transform.translation

/-- A filter is what it holds in its fields. -/
theorem eq_of_content {f g : Filter} (h : ∀ x, f.content x = g.content x) : f = g := by
  obtain ⟨_, _, _, ⟨_, _, _⟩, _, _, _, _⟩ := f
  obtain ⟨_, _, _, ⟨_, _, _⟩, _, _, _, _⟩ := g
  cases h .mask
  cases h .operation
  cases h .alpha
  cases h .defaultColor
  cases h .wrap
  cases h .coordinates
  cases h .repetitions
  cases h .rotation
  cases h .scale
  cases h .translation
  rfl

/-! ### Effects on one field -/

/-- What a change does to one field. -/
inductive Effect (α : Type) where
  | keep
  /-- Back to the default. -/
  | clear
  | set (a : α)
  | compose (a : α)

namespace Effect

variable {α : Type}

/-- The content of a field after an effect. -/
def onto (default : α) (op : α → α → α) (content : α) : Effect α → α
  | keep => content
  | clear => default
  | set a => a
  | compose a => op content a

/-- The content after some effects, from the default on. -/
def run (default : α) (op : α → α → α) (effects : List (Effect α)) : α :=
  effects.foldl (onto default op) default

def isKeep : Effect α → Bool
  | keep => true
  | _ => false

def isClear : Effect α → Bool
  | clear => true
  | _ => false

/-- Whether nothing before it matters any longer. -/
def settles : Effect α → Bool
  | clear => true
  | set _ => true
  | _ => false

def argument? : Effect α → Option α
  | set a => some a
  | _ => none

def amount? : Effect α → Option α
  | compose a => some a
  | _ => none

/-- What was set last since the field was cleared, or the default if nothing was. -/
def settled (default : α) (effects : List (Effect α)) : α :=
  ((effects.rtakeWhile fun e => !e.isClear).filterMap argument?).getLast?.getD default

/-- What was composed onto the field since it was set or cleared. -/
def amounts (effects : List (Effect α)) : List α :=
  (effects.rtakeWhile fun e => !e.settles).filterMap amount?

variable {default : α} {op : α → α → α} {effects : List (Effect α)}

/-- **A field holds what was set last, and on it the amounts that came later.** -/
theorem run_eq : run default op effects = (amounts effects).foldl op (settled default effects) := by
  induction effects using List.reverseRecOn with
  | nil => rfl
  | append_singleton before e ih =>
      have hstep : run default op (before ++ [e]) = onto default op (run default op before) e := by
        rw [run, List.foldl_append]
        rfl
      rw [hstep, settled, amounts]
      cases e with
      | keep =>
          rw [List.rtakeWhile_concat_pos _ _ _ rfl, List.rtakeWhile_concat_pos _ _ _ rfl,
            List.filterMap_append, List.filterMap_append]
          simpa [settled, amounts, onto, argument?, amount?, List.filterMap_cons] using ih
      | clear =>
          rw [List.rtakeWhile_concat_neg _ _ _ (by simp [isClear]),
            List.rtakeWhile_concat_neg _ _ _ (by simp [settles])]
          rfl
      | set a =>
          rw [List.rtakeWhile_concat_pos _ _ _ rfl, List.filterMap_append,
            List.rtakeWhile_concat_neg _ _ _ (by simp [settles])]
          simp [onto, argument?]
      | compose a =>
          rw [List.rtakeWhile_concat_pos _ _ _ rfl, List.rtakeWhile_concat_pos _ _ _ rfl,
            List.filterMap_append, List.filterMap_append, List.foldl_append]
          simpa [settled, amounts, onto, argument?, amount?] using congrArg (op · a) ih

/-- Effects that keep the field may be left out. -/
theorem foldl_filter_onto (a : α) : (effects.filter fun e => !e.isKeep).foldl (onto default op) a =
    effects.foldl (onto default op) a := by
  rw [List.foldl_filter]
  congr 1
  funext a e
  cases e <;> rfl

/-- Where nothing is ever set, the default is settled. -/
theorem settled_eq_default (h : ∀ e ∈ effects, e.argument? = none) :
    settled default effects = default := by
  have hnone : (effects.rtakeWhile fun e => !e.isClear).filterMap argument? = [] :=
    List.filterMap_eq_nil_iff.mpr fun e he => h e ((List.rtakeWhile_suffix _ _).subset he)
  rw [settled, hnone]
  rfl

/-- Where nothing is ever composed, the field holds what is settled. -/
theorem run_eq_settled (h : ∀ e ∈ effects, e.amount? = none) :
    run default op effects = settled default effects := by
  have hnone : amounts effects = [] :=
    List.filterMap_eq_nil_iff.mpr fun e he => h e ((List.rtakeWhile_suffix _ _).subset he)
  rw [run_eq, hnone]
  rfl

end Effect

/-! ### Changes -/

/-- What a change does to each field. -/
def Edit.effect : Edit → (x : Field) → Effect x.Content
  | .mask m, .mask => .set m
  | .operation o, .operation => .set o
  | .alpha a, .alpha => .set a
  | .defaultColor c, .defaultColor => .set c
  | .toggleWrap, .wrap => .compose true
  | .wrap b, .wrap => .set b
  | .coordinates b, .coordinates => .set b
  | .repetitions n, .repetitions => .set n
  | .scale p, .scale => .compose p
  | .rotate r, .rotation => .compose r
  | .translate p, .translation => .compose p
  | .transform r _ _, .rotation => .compose r
  | .transform _ s _, .scale => .compose s
  | .transform _ _ t, .translation => .compose t
  | .identityTransform, .rotation => .clear
  | .identityTransform, .scale => .clear
  | .identityTransform, .translation => .clear
  | .reset, _ => .clear
  | _, _ => .keep

/-- **A change acts in each field on what the field held before.** -/
theorem content_edit (f : Filter) (e : Edit) (x : Field) :
    (f.edit e).content x = (e.effect x).onto (initial.content x) x.compose (f.content x) := by
  cases e <;> cases x <;> first | rfl | exact (Bool.xor_true _).symm

/-- So do changes that follow one another. -/
theorem content_foldl_edit (edits : List Edit) (f : Filter) (x : Field) :
    (edits.foldl edit f).content x = (edits.map (·.effect x)).foldl
      (Effect.onto (initial.content x) x.compose) (f.content x) := by
  induction edits generalizing f with
  | nil => rfl
  | cons e rest ih => rw [List.foldl_cons, ih, content_edit, List.map_cons, List.foldl_cons]

/-! ### What a filter holds after some changes -/

/-- Whether a change has to do with a field. -/
def Edit.addresses (e : Edit) (x : Field) : Bool := !(e.effect x).isKeep

/-- **Each field depends on the changes that address it only**, in the order in which they are made. -/
theorem content_congr {edits edits' : List Edit} {f g : Filter} {x : Field}
    (hedits : edits.filter (·.addresses x) = edits'.filter (·.addresses x))
    (hstart : f.content x = g.content x) :
    (edits.foldl edit f).content x = (edits'.foldl edit g).content x := by
  have haddressed (l : List Edit) : (l.map (·.effect x)).filter (fun e => !e.isKeep) =
      (l.filter (·.addresses x)).map (·.effect x) := List.filter_map
  rw [content_foldl_edit, content_foldl_edit, ← Effect.foldl_filter_onto, haddressed, hedits,
    ← haddressed, Effect.foldl_filter_onto, hstart]

/-- Whether amounts are composed onto a field. -/
def Field.composes : Field → Bool
  | wrap => true
  | rotation => true
  | scale => true
  | translation => true
  | _ => false

/-- Whether a field is set to arguments. -/
def Field.isSet : Field → Bool
  | rotation => false
  | scale => false
  | translation => false
  | _ => true

theorem Edit.amount?_effect {x : Field} (hx : x.composes = false) (e : Edit) :
    (e.effect x).amount? = none := by
  cases x <;> cases hx <;> cases e <;> rfl

theorem Edit.argument?_effect {x : Field} (hx : x.isSet = false) (e : Edit) :
    (e.effect x).argument? = none := by
  cases x <;> cases hx <;> cases e <;> rfl

/-- To toggle some times is to negate as often. -/
theorem foldl_xor {bs : List Bool} (h : ∀ b ∈ bs, b = true) (b : Bool) :
    bs.foldl xor b = Bool.not^[bs.length] b := by
  induction bs generalizing b with
  | nil => rfl
  | cons c rest ih =>
      obtain ⟨rfl, hrest⟩ := List.forall_mem_cons.mp h
      rw [List.foldl_cons, ih hrest, Bool.xor_true]
      rfl

/-- A filter that is in each field what some effects make of the default: in most fields the last
argument, the wrap toggled as often as that was asked for since, and the parts of the transform composed
from the left. -/
structure IsMadeBy (f : Filter) (effects : (x : Field) → List (Effect x.Content)) : Prop where
  mask : f.mask = Effect.settled .all (effects .mask)
  operation : f.operation = Effect.settled .invert (effects .operation)
  alpha : f.alpha = Effect.settled 1 (effects .alpha)
  defaultColor : f.defaultColor = Effect.settled ⟨0, 0, 0⟩ (effects .defaultColor)
  coordinates : f.coordinates = Effect.settled false (effects .coordinates)
  repetitions : f.repetitions = Effect.settled 1 (effects .repetitions)
  wrap : f.wrap =
    Bool.not^[(Effect.amounts (effects .wrap)).length] (Effect.settled false (effects .wrap))
  rotation : f.transform.rotation = (Effect.amounts (effects .rotation)).foldl (· + ·) 0
  scale : f.transform.scale = (Effect.amounts (effects .scale)).foldl Point.mul (.both 1)
  translation : f.transform.translation =
    (Effect.amounts (effects .translation)).foldl Point.add (.both 0)

/-- **What changes make of the default filter.** -/
theorem isMadeBy_edits (edits : List Edit) :
    (edits.foldl edit initial).IsMadeBy fun x => edits.map (·.effect x) := by
  have hrun (x : Field) : (edits.foldl edit initial).content x =
      Effect.run (initial.content x) x.compose (edits.map (·.effect x)) := content_foldl_edit ..
  have hset (x : Field) (hx : x.composes = false) : (edits.foldl edit initial).content x =
      Effect.settled (initial.content x) (edits.map (·.effect x)) := by
    rw [hrun, Effect.run_eq_settled]
    exact List.forall_mem_map.mpr fun e _ => e.amount?_effect hx
  have hcomposed (x : Field) (hx : x.isSet = false) : (edits.foldl edit initial).content x =
      (Effect.amounts (edits.map (·.effect x))).foldl x.compose (initial.content x) := by
    rw [hrun, Effect.run_eq, Effect.settled_eq_default]
    exact List.forall_mem_map.mpr fun e _ => e.argument?_effect hx
  refine ⟨hset .mask rfl, hset .operation rfl, hset .alpha rfl, hset .defaultColor rfl,
    hset .coordinates rfl, hset .repetitions rfl, ?_, hcomposed .rotation rfl, hcomposed .scale rfl,
    hcomposed .translation rfl⟩
  refine ((hrun .wrap).trans Effect.run_eq).trans (foldl_xor ?_ _)
  -- The only amount by which a wrap is ever changed is a toggle.
  intro b hb
  obtain ⟨effect, heffect, hamount⟩ := List.mem_filterMap.mp hb
  obtain ⟨e, -, rfl⟩ := List.mem_map.mp ((List.rtakeWhile_suffix _ _).subset heffect)
  cases e <;> cases hamount
  rfl

end FilterScript.Filter
