/-
The filters that are shown.

Of every filter that a run has its host show, all numbers are finite but those of the
transform, and what becomes of its document is decided by the transform alone.  If that
is finite too, no `null` stands in the document and the filter is read back from it.  If
a rotation, a factor or a shift has run beyond all finite numbers, the document says
`null` in its place and no decoder takes it back.
-/
import FilterScript.Proofs.Filter.Edit
import FilterScript.Proofs.Interpreter.Watch

namespace FilterScript

/-! ### Documents with holes -/

namespace Json

mutual

/-- Whether a `null` stands somewhere in a document. -/
def hasNull : Json → Bool
  | .null => true
  | .array items _ => hasNullItems items
  | .object members _ => hasNullMembers members
  | _ => false

/-- Whether a `null` stands in one of the items of an array. -/
def hasNullItems : List Json → Bool
  | [] => false
  | j :: rest => hasNull j || hasNullItems rest

/-- Whether a `null` stands in one of the members of an object. -/
def hasNullMembers : List (String × Json) → Bool
  | [] => false
  | (_, j) :: rest => hasNull j || hasNullMembers rest

end

theorem hasNull_single (x : Single) : hasNull (single x) = !x.isFinite := by
  unfold single
  cases x.isFinite <;> rfl

end Json

open Json

/-- Whether all numbers of a transform are finite. -/
def Transform.isFinite (t : Transform) : Bool :=
  t.rotation.isFinite && (t.scale.x.isFinite && t.scale.y.isFinite) &&
    (t.translation.x.isFinite && t.translation.y.isFinite)

namespace Filter

variable {f : Filter}

theorem hasNull_mask (mask : Mask) : hasNull mask.toJson = false := by
  cases mask <;> rfl

theorem hasNull_operation {o : Operation} (h : ∀ x ∈ o.singles, x.isFinite = true) :
    hasNull o.toJson = false := by
  cases o
  case rotateColor axis turns =>
    simp [Operation.toJson, record, hasNull, hasNullMembers, hasNull_single,
      h turns (by simp [Operation.singles])]
  all_goals rfl

/-- The document of a sound filter has a hole exactly where its transform is not finite. -/
theorem Sound.hasNull_toJson (h : f.Sound) : hasNull f.toJson = !f.transform.isFinite := by
  simp [toJson, Transform.toMembers, Point.toJson, colorJson, record, Json.list, nat, hasNull,
    hasNullMembers, hasNullItems, hasNull_single, hasNull_mask, hasNull_operation h.operation,
    h.alpha, h.red, h.green, h.blue, Transform.isFinite, Bool.not_and, Bool.or_assoc]

theorem checking_refused {x : Single} (h : x.isFinite = false) :
    checking asSingle (reread (single x)) = .error .mismatch := by
  rw [single, h]
  rfl

theorem checking_point_refused {p : Point} (hx : p.x.isFinite = true → ReadsBack p.x)
    (h : (p.x.isFinite && p.y.isFinite) = false) :
    checking Point.ofJson (reread p.toJson) = .error .mismatch := by
  have htuple : asTuple .buffer 2 (checking asSingle)
      (.list [reread (single p.x), reread (single p.y)]) = .error .mismatch := by
    cases hfinite : p.x.isFinite with
    | false => simp [asTuple, Json.list, checking_refused hfinite, error_bind]
    | true =>
        rw [hfinite, Bool.true_and] at h
        simp [asTuple, Json.list, checking_ok (hx hfinite).asSingle, checking_refused h, ok_bind,
          error_bind]
  simp only [checking, Point.ofJson, Point.toJson, reread_list, rereadItems, htuple, error_bind]

/-- **No decoder takes a filter back whose transform is not finite.** -/
theorem Sound.refused (h : f.Sound) (hreads : ∀ x ∈ f.singles, x.isFinite = true → ReadsBack x)
    (htransform : f.transform.isFinite = false) :
    ofJson (reread f.toJson) = .error .mismatch := by
  obtain ⟨halpha, hoperation, hrotation, hsx, hsy, htx, hty, hred, hgreen, hblue⟩ :=
    forall_singles.mp hreads
  -- The first member of the transform that is not finite stops the second walk.
  have hscan : scan Transform.fields skip [] f.readMembers = .error .mismatch := by
    refine scan_other rfl (skip_reread _ (readable_single halpha)) <|
      scan_other rfl (skip_reread _ f.mask.readable_toJson) <|
      scan_other rfl (skip_reread _ (Operation.readable_toJson hoperation)) ?_
    cases hr : f.transform.rotation.isFinite with
    | false => exact scan_refused rfl rfl (checking_refused hr)
    | true =>
        refine scan_field rfl rfl (checking_ok (hrotation hr).asSingle) ?_
        cases hs : f.transform.scale.x.isFinite && f.transform.scale.y.isFinite with
        | false => exact scan_refused rfl rfl (checking_point_refused hsx hs)
        | true =>
            obtain ⟨hx, hy⟩ := Bool.and_eq_true_iff.mp hs
            refine scan_field rfl rfl (checking_ok (Point.ofJson_reread (hsx hx) (hsy hy))) ?_
            simp only [Transform.isFinite, hr, hs, Bool.true_and] at htransform
            exact scan_refused rfl rfl (checking_point_refused htx htransform)
  rw [ofJson_reread_eq hreads (halpha h.alpha) (fun x hx => hoperation x hx (h.operation x hx))
    (hred h.red) (hgreen h.green) (hblue h.blue), Transform.ofMembers, hscan]
  rfl

/-- A sound filter with a finite transform is read back from its document. -/
theorem Sound.readsBack (h : f.Sound)
    (hreads : ∀ x ∈ f.singles, x.isFinite = true → ReadsBack x)
    (htransform : f.transform.isFinite = true) : ofJson (reread f.toJson) = .ok f := by
  simp only [Transform.isFinite, Bool.and_eq_true] at htransform
  refine ofJson_reread fun x hx => hreads x hx (?_ : x.isFinite = true)
  exact forall_singles (P := fun x => x.isFinite = true).mpr ⟨h.alpha, h.operation,
    htransform.1.1, htransform.1.2.1, htransform.1.2.2, htransform.2.1, htransform.2.2, h.red,
    h.green, h.blue⟩ x hx

end Filter

/-! ### What runs show -/

/-- Watches the filters that a run posts. -/
def Monitor.showing : Monitor Unit where
  protocol :=
    { Allows := fun _ q =>
        match q with
        | .post (.render f) => f.Sound
        | _ => True
      after := fun _ _ _ => ()
      MayStop := fun _ => True }
  Inv _ c := c.filter.Sound
  mayStop _ := trivial
  aside _ r hr := by
    cases r <;> first | exact ⟨trivial, fun _ => rfl⟩ | cases hr
  irrelevant _ _ hu := hu
  render hu := ⟨hu, hu⟩
  direct d hu := ⟨by cases d <;> trivial, hu⟩
  edit he hu := hu.edit he.sound
  known _ _ := trivial
  read _ _ hu := hu
  mark _ _ := trivial
  announce hu _ := ⟨trivial, trivial, hu⟩

namespace System

variable {config : Config} {H : List Note} {S : System} {r : RunId} {f : Filter}

theorem records_showing :
    Monitor.showing.Records () fun r H _ => ∀ f, .said r (.render f) ∈ H → f.Sound where
  fresh _ _ := Filter.sound_initial
  begins hfresh f hf := by
    have hby := hfresh _ hf
    simp [Note.isBy] at hby
  reply {r H u q} x hR hallows f hf := by
    rcases List.mem_append.mp hf with hf | hf
    · exact hR f hf
    · cases q <;> simp only [Note.ofReply] at hf
      case post m =>
        cases x with
        | false => cases hf
        | true =>
            cases List.mem_singleton.mp hf
            exact hallows
      all_goals simp at hf
  other hR hns f hf := by
    rcases List.mem_append.mp hf with hf | hf
    · exact hR f hf
    · have hby := hns _ hf
      simp [Note.isBy] at hby

/-- Every filter that is shown is sound. -/
theorem sound_of_said (hS : Reached config H S) (h : .said r (.render f) ∈ H) : f.Sound := by
  obtain ⟨w, hw⟩ := Option.ne_none_iff_exists'.mp (hS.started h (r := r) (by simp [Note.isBy]))
  obtain ⟨u, hR, -⟩ := records_showing.watched hS hw
  exact hR f h

/-- **What becomes of a filter that is shown.**  It repeats at least once, and all its numbers
are finite but perhaps those of its transform.  A `null` stands in its document exactly if one
of those is not finite; then the document is refused, and otherwise it is decoded to the
filter. -/
theorem shown_filter (hS : Reached config H S) (h : .said r (.render f) ∈ H)
    (hreads : ∀ x ∈ f.singles, x.isFinite = true → ReadsBack x) :
    f.Sound ∧ hasNull f.toJson = !f.transform.isFinite ∧
      decode Filter.ofJson f.toJson.render =
        if f.transform.isFinite then .ok f else .error .mismatch := by
  have hsound := sound_of_said hS h
  refine ⟨hsound, hsound.hasNull_toJson, ?_⟩
  rw [decode_render _ (Filter.readable_toJson hreads)]
  cases htransform : f.transform.isFinite with
  | true => exact hsound.readsBack hreads htransform
  | false => exact hsound.refused hreads htransform

theorem said_of_mem_posted {r : RunId} {H : List Note} {m : WorkerMessage} (h : m ∈ posted r H) :
    .said r m ∈ H := by
  obtain ⟨n, hn, hsaid⟩ := List.mem_filterMap.mp h
  cases n with
  | said r' m' =>
      by_cases hr : r' = r
      · simp only [Note.said?, hr, if_true, Option.some.injEq] at hsaid
        rwa [hr, hsaid] at hn
      · simp [Note.said?, hr] at hsaid
  | _ => cases hsaid

/-- A script that scales twice by a finite factor. -/
def grownHistory : List Move :=
  [.call (.start "scale(1e30); scale(1e30); render();" 0), .host, .host] ++
    List.replicate 7 (.thread 1)

/-- The filter that it shows: the product of the two factors is infinite. -/
def grown : Filter :=
  { Filter.initial with
    transform := { Transform.identity with scale := .both (Single.infinity false) } }

theorem shown_filter_grown :
    .said 1 (.render grown) ∈ ((ofConfig .standard .usual).play grownHistory).2 ∧ grown.Sound ∧
      hasNull grown.toJson = true ∧
      decode Filter.ofJson grown.toJson.render = .error .mismatch := by
  have hposted : .render grown ∈ posted 1 ((ofConfig .standard .usual).play grownHistory).2 := by
    decide +kernel
  have hsaid : .said 1 (.render grown) ∈ ((ofConfig .standard .usual).play grownHistory).2 :=
    said_of_mem_posted hposted
  have hreads : ∀ x ∈ grown.singles, x.isFinite = true → ReadsBack x := by
    decide +kernel
  have hinfinite : grown.transform.isFinite = false := by
    decide +kernel
  obtain ⟨hsound, hnull, hdecode⟩ := shown_filter ⟨.usual, grownHistory, rfl⟩ hsaid hreads
  rw [hinfinite] at hnull hdecode
  exact ⟨hsaid, hsound, hnull, hdecode⟩

end System

end FilterScript
