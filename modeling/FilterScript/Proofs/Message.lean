/-
Messages on the wire, read back.

Each type is decoded from what its own document is read as.  The numbers are the only
thing that can go wrong: one that is not finite is written as `null`, and of the others it
is assumed that their texts are read back.  `singles` lists the numbers of a value, and
the theorems climb from masks and operations to filters and from there to messages.
-/
import FilterScript.Message
import FilterScript.Proofs.Json.Decoder

namespace FilterScript

open Json

/-! ### Masks and operations -/

theorem Mask.readable_toJson (mask : Mask) : Readable mask.toJson := by
  cases mask
  case mod divisor remainder =>
    exact ⟨trivial, ⟨readable_word _, readable_word _, trivial⟩, trivial⟩
  case rows bars step =>
    exact ⟨trivial, ⟨readable_word _, readable_word _, trivial⟩, trivial⟩
  all_goals exact ⟨trivial, trivial⟩

theorem Mask.asPair_record {first second : String} (hne : first ≠ second) (a b : UInt32) :
    Mask.asPair first second (.record [(first, .nat a.toNat), (second, .nat b.toNat)]) =
      .ok (a, b) := by
  have hfirst : (second == first) = false := by simpa using hne.symm
  have hrecord := asObject_record
    [(first, checking (asNat largest32)), (second, checking (asNat largest32))] skip
    [(first, .nat a.toNat), (second, .nat b.toNat)]
    (scan_field (by simp) (by simp) (checking_ok (asNat_word a))
      (scan_field (by simp [List.lookup_cons, hfirst]) (by simpa using hne.symm)
        (checking_ok (asNat_word b)) rfl))
  simp only [Mask.asPair, hrecord, ok_bind, get_self, get_next hne.symm, asNat_word,
    UInt32.ofNat_toNat]
  rfl

/-- **A mask is decoded from its own document.** -/
theorem Mask.ofJson_reread (mask : Mask) : Mask.ofJson (reread mask.toJson) = .ok mask := by
  cases mask
  case mod divisor remainder =>
    simp only [Mask.toJson, reread_record, rereadMembers, reread_string, reread_word]
    refine (asTagged_pair (by decide) (k := .pair "divisor" "remainder" .mod) rfl).trans ?_
    simp only [needed, Mask.asPair_record (show "divisor" ≠ "remainder" by decide), ok_bind]
    rfl
  case rows bars step =>
    simp only [Mask.toJson, reread_record, rereadMembers, reread_string, reread_word]
    refine (asTagged_pair (by decide) (k := .pair "rows" "step" .rows) rfl).trans ?_
    simp only [needed, Mask.asPair_record (show "rows" ≠ "step" by decide), ok_bind]
    rfl
  all_goals rfl

/-- The numbers of an operation. -/
def Operation.singles : Operation → List Single
  | rotateColor _ turns => [turns]
  | _ => []

theorem Operation.readable_toJson {operation : Operation}
    (h : ∀ x ∈ operation.singles, x.isFinite = true → ReadsBack x) : Readable operation.toJson := by
  cases operation
  case rotateColor axis turns =>
    exact ⟨trivial, ⟨trivial, readable_single (h turns (by simp [singles])), trivial⟩, trivial⟩
  all_goals exact ⟨trivial, trivial⟩

/-- **An operation is decoded from its own document.** -/
theorem Operation.ofJson_reread {operation : Operation}
    (h : ∀ x ∈ operation.singles, ReadsBack x) :
    Operation.ofJson (reread operation.toJson) = .ok operation := by
  cases operation
  case rotateColor axis turns =>
    have hturns := (h turns (by simp [singles])).asSingle
    have haxis : asName .text ColorAxis.ofName? (.string axis.name) = .ok axis :=
      asName_string (by cases axis <;> rfl)
    simp only [toJson, reread_record, rereadMembers, reread_string]
    refine (asTagged_pair (by decide) (k := .rotation) rfl).trans ?_
    have hrecord := asObject_record
      [("axis", checking (asName .text ColorAxis.ofName?)), ("turns", checking asSingle)] skip
      [("axis", .string axis.name), ("turns", reread (single turns))]
      (scan_field rfl rfl (checking_ok haxis) (scan_field rfl rfl (checking_ok hturns) rfl))
    simp [needed, asRotation, hrecord, ok_bind, haxis, hturns]
  all_goals rfl

/-! ### Filters -/

/-- The numbers of a filter. -/
def Filter.singles (f : Filter) : List Single :=
  f.alpha :: f.operation.singles ++ [f.transform.rotation, f.transform.scale.x, f.transform.scale.y,
    f.transform.translation.x, f.transform.translation.y, f.defaultColor.red, f.defaultColor.green,
    f.defaultColor.blue]

theorem Filter.forall_singles {f : Filter} {P : Single → Prop} :
    (∀ x ∈ f.singles, P x) ↔ P f.alpha ∧ (∀ x ∈ f.operation.singles, P x) ∧
      P f.transform.rotation ∧ P f.transform.scale.x ∧ P f.transform.scale.y ∧
      P f.transform.translation.x ∧ P f.transform.translation.y ∧ P f.defaultColor.red ∧
      P f.defaultColor.green ∧ P f.defaultColor.blue := by
  simp [singles, or_imp, forall_and]

section Points

variable {p : Point} {levels : Nat}

theorem Point.readable_toJson (hx : p.x.isFinite = true → ReadsBack p.x)
    (hy : p.y.isFinite = true → ReadsBack p.y) : Readable p.toJson :=
  ⟨readable_single hx, readable_single hy, trivial⟩

/-- A point is decoded from its own document. -/
theorem Point.ofJson_reread (hx : ReadsBack p.x) (hy : ReadsBack p.y) :
    Point.ofJson (reread p.toJson) = .ok p := by
  have htuple : asTuple .buffer 2 (checking asSingle)
      (.list [reread (single p.x), reread (single p.y)]) =
        .ok [reread (single p.x), reread (single p.y)] := by
    simp [asTuple, Json.list, checking_ok hx.asSingle, checking_ok hy.asSingle, ok_bind]
    rfl
  simp only [Point.ofJson, Point.toJson, reread_list, rereadItems, htuple, ok_bind, hx.asSingle,
    hy.asSingle]
  rfl

/-- A number may be buffered, and so may the `null` in place of one. -/
theorem hold_single {x : Single} (h : x.isFinite = true → ReadsBack x) :
    hold levels (reread (single x)) = .ok () := by
  by_cases hfinite : x.isFinite
  · obtain ⟨n, hn⟩ := number_of_asSingle (h hfinite).asSingle
    rw [hn]
    cases levels <;> rfl
  · rw [single, if_neg hfinite]
    cases levels <;> rfl

theorem hold_point (hx : p.x.isFinite = true → ReadsBack p.x)
    (hy : p.y.isFinite = true → ReadsBack p.y) :
    hold (levels + 1) (reread p.toJson) = .ok () := by
  simp only [Point.toJson, reread_list, rereadItems]
  simp only [Json.list, hold, holdItems, hold_single hx, hold_single hy, ok_bind]
  rfl

end Points

theorem asColor_reread {c : Color} (hr : ReadsBack c.red) (hg : ReadsBack c.green)
    (hb : ReadsBack c.blue) : Filter.asColor (reread (Filter.colorJson c)) = .ok c := by
  have htuple : asTuple .text 3 (checking asSingle)
      (.list [reread (single c.red), reread (single c.green), reread (single c.blue)]) =
        .ok [reread (single c.red), reread (single c.green), reread (single c.blue)] := by
    simp [asTuple, Json.list, checking_ok hr.asSingle, checking_ok hg.asSingle,
      checking_ok hb.asSingle, ok_bind]
    rfl
  simp only [Filter.asColor, Filter.colorJson, reread_list, rereadItems, htuple, ok_bind,
    hr.asSingle, hg.asSingle, hb.asSingle]
  rfl

namespace Filter

variable {f : Filter}

/-- The members of a filter's document, as they are read. -/
def readMembers (f : Filter) : Members :=
  [("alpha", reread (single f.alpha)), ("mask", reread f.mask.toJson),
    ("operation", reread f.operation.toJson), ("rotation", reread (single f.transform.rotation)),
    ("scale", reread f.transform.scale.toJson),
    ("translation", reread f.transform.translation.toJson), ("wrap", .bool f.wrap),
    ("defaultColor", reread (colorJson f.defaultColor)), ("coordinates", .bool f.coordinates),
    ("repeat", .nat f.repetitions.toNat)]

theorem reread_toJson (f : Filter) : reread f.toJson = .record f.readMembers := by
  simp [toJson, Transform.toMembers, rereadMembers, readMembers]

theorem readable_toJson (h : ∀ x ∈ f.singles, x.isFinite = true → ReadsBack x) :
    Readable f.toJson := by
  obtain ⟨halpha, hoperation, hrotation, hsx, hsy, htx, hty, hred, hgreen, hblue⟩ :=
    forall_singles.mp h
  exact ⟨readable_single halpha, f.mask.readable_toJson, Operation.readable_toJson hoperation,
    readable_single hrotation, Point.readable_toJson hsx hsy, Point.readable_toJson htx hty,
    trivial, ⟨readable_single hred, readable_single hgreen, readable_single hblue, trivial⟩,
    trivial, readable_word _, trivial⟩

/-- The numbers beside the transform decide nothing if they are read back: the document is
decoded as its transform is.  The members of the transform are held back in a first walk
and read in a second one. -/
theorem ofJson_reread_eq (h : ∀ x ∈ f.singles, x.isFinite = true → ReadsBack x)
    (halpha : ReadsBack f.alpha) (hoperation : ∀ x ∈ f.operation.singles, ReadsBack x)
    (hred : ReadsBack f.defaultColor.red) (hgreen : ReadsBack f.defaultColor.green)
    (hblue : ReadsBack f.defaultColor.blue) :
    ofJson (reread f.toJson) =
      (Transform.ofMembers f.readMembers).map fun transform => { f with transform } := by
  obtain ⟨-, -, hrotation, hsx, hsy, htx, hty, -⟩ := forall_singles.mp h
  have hmask := f.mask.ofJson_reread
  have hoperation := Operation.ofJson_reread hoperation
  have hcolor := asColor_reread hred hgreen hblue
  have hcount : asCount (.nat f.repetitions.toNat) = .ok f.repetitions.toNat :=
    asNat_word f.repetitions
  have hobject : asObject fields (hold deepestBuffer) (.record f.readMembers) =
      .ok f.readMembers :=
    asObject_record _ _ _ <|
      scan_field rfl rfl (checking_ok halpha.asSingle) <|
      scan_field rfl rfl (checking_ok hmask) <|
      scan_field rfl rfl (checking_ok hoperation) <|
      scan_other rfl (hold_single hrotation) <|
      scan_other rfl (hold_point hsx hsy) <|
      scan_other rfl (hold_point htx hty) <|
      scan_field rfl rfl rfl <|
      scan_field rfl rfl (checking_ok hcolor) <|
      scan_field rfl rfl rfl <|
      scan_field rfl rfl (checking_ok hcount) rfl
  rw [reread_toJson]
  simp only [ofJson, hobject, ok_bind]
  cases Transform.ofMembers f.readMembers <;>
    simp [readMembers, halpha.asSingle, hmask, hoperation, asBool, hcolor, hcount, ok_bind,
      Except.map]

/-- **A filter is decoded from its own document.** -/
theorem ofJson_reread (h : ∀ x ∈ f.singles, ReadsBack x) : ofJson (reread f.toJson) = .ok f := by
  obtain ⟨halpha, hoperation, hrotation, hsx, hsy, htx, hty, hred, hgreen, hblue⟩ :=
    forall_singles.mp h
  have hscale := Point.ofJson_reread hsx hsy
  have htranslation := Point.ofJson_reread htx hty
  have hscan : scan Transform.fields skip [] f.readMembers = .ok () :=
    scan_other rfl (skip_reread _ halpha.readable) <|
    scan_other rfl (skip_reread _ f.mask.readable_toJson) <|
    scan_other rfl (skip_reread _ (Operation.readable_toJson fun x hx _ => hoperation x hx)) <|
    scan_field rfl rfl (checking_ok hrotation.asSingle) <|
    scan_field rfl rfl (checking_ok hscale) <|
    scan_field rfl rfl (checking_ok htranslation) <|
    scan_other rfl rfl <|
    scan_other rfl (skip_reread _ ⟨hred.readable, hgreen.readable, hblue.readable, trivial⟩) <|
    scan_other rfl rfl <|
    scan_other rfl rfl rfl
  have htransform : Transform.ofMembers f.readMembers = .ok f.transform := by
    rw [Transform.ofMembers, hscan, ok_bind]
    simp [readMembers, hrotation.asSingle, hscale, htranslation, ok_bind]
  rw [ofJson_reread_eq (fun x hx _ => h x hx) halpha hoperation hred hgreen hblue, htransform]
  rfl

end Filter

/-! ### Widgets -/

/-- The numbers of a shape. -/
def Widget.Shape.singles : Widget.Shape → List Single
  | slider low high step initial => [low, high, step, initial]
  | _ => []

theorem readable_strings (options : List String) : ReadableItems (options.map Json.string) := by
  induction options with
  | nil => trivial
  | cons s options ih => exact ⟨trivial, ih⟩

theorem rereadItems_strings (options : List String) :
    rereadItems (options.map Json.string) = options.map Json.string := by
  induction options with
  | nil => rfl
  | cons s options ih => rw [List.map_cons, rereadItems, ih, reread_string]

theorem asList_strings (options : List String) :
    asList asString (.list (options.map Json.string)) = .ok options := by
  have hmap : (options.map Json.string).mapM asString = .ok options := by
    induction options with
    | nil => rfl
    | cons s options ih => simp [List.mapM_cons, asString, ih, ok_bind, pure, Except.pure]
  simp only [asList, Json.list, hmap, ok_bind]
  rfl

theorem Widget.Shape.readable_toJson {shape : Shape} (h : ∀ x ∈ shape.singles, ReadsBack x) :
    Readable shape.toJson := by
  cases shape with
  | checkbox => trivial
  | radio options => exact ⟨⟨readable_strings options, trivial⟩, trivial⟩
  | slider low high step initial =>
      simp only [singles, List.mem_cons, List.not_mem_nil, or_false, forall_eq_or_imp,
        forall_eq] at h
      exact ⟨⟨h.1.readable, h.2.1.readable, h.2.2.1.readable, h.2.2.2.readable, trivial⟩, trivial⟩

/-- **A shape is decoded from its own document.** -/
theorem Widget.Shape.ofJson_reread {shape : Shape} (h : ∀ x ∈ shape.singles, ReadsBack x) :
    Shape.ofJson (reread shape.toJson) = .ok shape := by
  cases shape with
  | checkbox => rfl
  | radio options =>
      have hoptions := asList_strings options
      have hrecord := asRecord_record .text [("options", checking (asList asString))]
        [("options", .list (options.map Json.string))]
        (scan_field rfl rfl (checking_ok hoptions) rfl)
      simp only [toJson, choice, reread_record, rereadMembers, reread_list, rereadItems_strings]
      refine asChoice_choice.trans ?_
      simp [ofMember, asRadio, hrecord, ok_bind, hoptions]
  | slider low high step initial =>
      simp only [singles, List.mem_cons, List.not_mem_nil, or_false, forall_eq_or_imp,
        forall_eq] at h
      obtain ⟨hlow, hhigh, hstep, hinitial⟩ := h
      have hrecord := asRecord_record .text
        [("min", checking asSingle), ("max", checking asSingle), ("step", checking asSingle),
          ("initial", checking asSingle)]
        [("min", reread (single low)), ("max", reread (single high)),
          ("step", reread (single step)), ("initial", reread (single initial))]
        (scan_field rfl rfl (checking_ok hlow.asSingle) <|
          scan_field rfl rfl (checking_ok hhigh.asSingle) <|
          scan_field rfl rfl (checking_ok hstep.asSingle) <|
          scan_field rfl rfl (checking_ok hinitial.asSingle) rfl)
      simp only [toJson, choice, reread_record, rereadMembers]
      refine asChoice_choice.trans ?_
      simp [ofMember, asSlider, hrecord, ok_bind, hlow.asSingle, hhigh.asSingle, hstep.asSingle,
        hinitial.asSingle]

/-! ### Messages -/

namespace WorkerMessage

/-- The numbers of a message. -/
def singles : WorkerMessage → List Single
  | render filter => filter.singles
  | widget _ shape => shape.singles
  | oscillatorFrequency hertz => [hertz]
  | oscillatorGain gain => [gain]
  | decibelRange low high => [low, high]
  | _ => []

theorem readable_toJson {m : WorkerMessage} (h : ∀ x ∈ m.singles, ReadsBack x) :
    Readable m.toJson := by
  cases m with
  | render filter => exact ⟨Filter.readable_toJson fun x hx _ => h x hx, trivial⟩
  | widget name shape => exact ⟨⟨trivial, Widget.Shape.readable_toJson h, trivial⟩, trivial⟩
  | resolution n => exact ⟨readable_word n, trivial⟩
  | oscillatorFrequency hertz => exact ⟨(h hertz (by simp [singles])).readable, trivial⟩
  | oscillatorGain gain => exact ⟨(h gain (by simp [singles])).readable, trivial⟩
  | decibelRange low high =>
      exact ⟨⟨(h low (by simp [singles])).readable, (h high (by simp [singles])).readable,
        trivial⟩, trivial⟩
  | error text => exact ⟨trivial, trivial⟩
  | _ => trivial

/-- **A message is decoded from its own document.** -/
theorem ofJson_reread {m : WorkerMessage} (h : ∀ x ∈ m.singles, ReadsBack x) :
    ofJson (reread m.toJson) = .ok m := by
  cases m with
  | render filter =>
      refine asChoice_choice.trans ?_
      simp only [ofMember, Filter.ofJson_reread h, ok_bind]
      rfl
  | widget name shape =>
      have hshape := Widget.Shape.ofJson_reread h
      have hrecord := asRecord_record .text
        [("name", checking asString), ("widget", checking Widget.Shape.ofJson)]
        [("name", .string name), ("widget", reread shape.toJson)]
        (scan_field rfl rfl rfl (scan_field rfl rfl (checking_ok hshape) rfl))
      refine asChoice_choice.trans ?_
      simp [ofMember, asWidget, rereadMembers, hrecord, ok_bind, asString, hshape]
  | resolution n =>
      simp only [toJson, choice, reread_record, rereadMembers, reread_word]
      refine asChoice_choice.trans ?_
      simp [ofMember, asNat_word]
  | oscillatorFrequency hertz =>
      refine asChoice_choice.trans ?_
      simp only [ofMember, (h hertz (by simp [singles])).asSingle, ok_bind]
      rfl
  | oscillatorGain gain =>
      refine asChoice_choice.trans ?_
      simp only [ofMember, (h gain (by simp [singles])).asSingle, ok_bind]
      rfl
  | decibelRange low high =>
      have hlow := (h low (by simp [singles])).asSingle
      have hhigh := (h high (by simp [singles])).asSingle
      have hrecord := asRecord_record .text [("min", checking asSingle), ("max", checking asSingle)]
        [("min", reread (single low)), ("max", reread (single high))]
        (scan_field rfl rfl (checking_ok hlow) (scan_field rfl rfl (checking_ok hhigh) rfl))
      refine asChoice_choice.trans ?_
      simp [ofMember, asRange, rereadMembers, hrecord, ok_bind, hlow, hhigh]
  | error text => rfl
  | _ => rfl

/-- **A message is decoded from its own text.** -/
theorem decode_render {m : WorkerMessage} (h : ∀ x ∈ m.singles, ReadsBack x) :
    decode ofJson m.toJson.render = .ok m :=
  (Json.decode_render ofJson (readable_toJson h)).trans (ofJson_reread h)

end WorkerMessage

end FilterScript
