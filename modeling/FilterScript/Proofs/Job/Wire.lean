/-
Configurations, jobs and records on the wire.

Each is decoded from its own document, in either layout.  A configuration and a job may also be read
from a document that leaves fields out; a `Draft` says which fields are given and with which values,
and what is read is the draft with the rest filled in.  The defaults of a job are those of the job
that runs its script under standard conditions, and inside the job those of the standard
configuration: whoever leaves everything out gets what a command without options gets.
-/
import FilterScript.Job.Record
import FilterScript.Proofs.Json.Record
import FilterScript.Proofs.Message

namespace FilterScript

open Json

/-! ### Configurations -/

namespace Config

/-- A configuration some of whose fields are given. -/
structure Draft where
  maxExprDepth : Option UInt64
  maxCallLevels : Option UInt64
  maxStringSize : Option UInt64
  maxArraySize : Option UInt64
  maxMapSize : Option UInt64
  maxOperations : Option UInt64
  logLimitPerFrame : Option UInt32

namespace Draft

/-- The configuration of a draft: the fields that are not given have their standard values. -/
def config (d : Draft) : Config where
  maxExprDepth := d.maxExprDepth.getD standard.maxExprDepth
  maxCallLevels := d.maxCallLevels.getD standard.maxCallLevels
  maxStringSize := d.maxStringSize.getD standard.maxStringSize
  maxArraySize := d.maxArraySize.getD standard.maxArraySize
  maxMapSize := d.maxMapSize.getD standard.maxMapSize
  maxOperations := d.maxOperations.getD standard.maxOperations
  logLimitPerFrame := d.logLimitPerFrame.getD standard.logLimitPerFrame

/-- The draft that gives every field of a configuration. -/
def full (c : Config) : Draft where
  maxExprDepth := some c.maxExprDepth
  maxCallLevels := some c.maxCallLevels
  maxStringSize := some c.maxStringSize
  maxArraySize := some c.maxArraySize
  maxMapSize := some c.maxMapSize
  maxOperations := some c.maxOperations
  logLimitPerFrame := some c.logLimitPerFrame

/-- What a draft gives on the wire. -/
def slots (d : Draft) : Slots :=
  let word (n : UInt64) : Json := .nat n.toNat
  [("maxExprDepth", d.maxExprDepth.map word), ("maxCallLevels", d.maxCallLevels.map word),
    ("maxStringSize", d.maxStringSize.map word), ("maxArraySize", d.maxArraySize.map word),
    ("maxMapSize", d.maxMapSize.map word), ("maxOperations", d.maxOperations.map word),
    ("logLimitPerFrame", d.logLimitPerFrame.map fun n => .nat n.toNat)]

end Draft

variable {d : Draft} {ms : Members}

theorem asRecord_fields (h : Fills d.slots ms) :
    asRecord .text fields (.record ms) = .ok ms :=
  h.asRecord <| .cons (admits_map asWord64_nat) <| .cons (admits_map asWord64_nat) <|
    .cons (admits_map asWord64_nat) <| .cons (admits_map asWord64_nat) <|
    .cons (admits_map asWord64_nat) <| .cons (admits_map asWord64_nat) <|
    .cons (admits_map asWord32_nat) .nil

/-- **What a draft leaves out has its standard value.** -/
theorem ofJson_fills (h : Fills d.slots ms) : ofJson (.record ms) = .ok d.config := by
  have hgiven := h.given
  simp only [Draft.slots, List.forall_mem_cons] at hgiven
  obtain ⟨hexpr, hcalls, hstring, harray, hmap, hoperations, hlog, -⟩ := hgiven
  simp only [ofJson, asRecord_fields h, ok_bind, getD_of_lookup hexpr asWord64_nat,
    getD_of_lookup hcalls asWord64_nat, getD_of_lookup hstring asWord64_nat,
    getD_of_lookup harray asWord64_nat, getD_of_lookup hmap asWord64_nat,
    getD_of_lookup hoperations asWord64_nat, getD_of_lookup hlog asWord32_nat]
  rfl

/-- **A configuration is decoded from its own document.** -/
theorem ofJson_toJson (c : Config) : ofJson c.toJson = .ok c :=
  ofJson_fills ((Draft.full c).slots.fills_members (by simp [Draft.slots]))

theorem readable_toJson (c : Config) : Readable c.toJson :=
  ⟨readable_word64 _, readable_word64 _, readable_word64 _, readable_word64 _, readable_word64 _,
    readable_word64 _, readable_word _, trivial⟩

@[simp] theorem reread_toJson (c : Config) : reread c.toJson = c.toJson := by
  simp [toJson, rereadMembers]

end Config

/-! ### Jobs -/

namespace Job

/-- A job some of whose fields are given, beside the script. -/
structure Draft where
  scriptPath : String
  frames : Option UInt64
  intervalMs : Option UInt64
  settleTimeoutMs : Option UInt64
  outputPath : Option (Option String)
  engine : Option Config.Draft

namespace Draft

/-- The job of a draft: the fields that are not given are those of the job that runs the script
under standard conditions. -/
def job (d : Draft) : Job :=
  let plain := ofScript d.scriptPath
  { scriptPath := plain.scriptPath
    frames := d.frames.getD plain.frames
    intervalMs := d.intervalMs.getD plain.intervalMs
    settleTimeoutMs := d.settleTimeoutMs.getD plain.settleTimeoutMs
    outputPath := d.outputPath.getD plain.outputPath
    engine := (d.engine.map Config.Draft.config).getD plain.engine }

/-- The draft that gives every field of a job. -/
def full (job : Job) : Draft where
  scriptPath := job.scriptPath
  frames := some job.frames
  intervalMs := some job.intervalMs
  settleTimeoutMs := some job.settleTimeoutMs
  outputPath := some job.outputPath
  engine := some (.full job.engine)

/-- What a draft gives on the wire, if the configuration stands in an object with members `es`. -/
def slots (d : Draft) (es : Members) : Slots :=
  let word (n : UInt64) : Json := .nat n.toNat
  [("scriptPath", some (.string d.scriptPath)), ("frames", d.frames.map word),
    ("intervalMs", d.intervalMs.map word), ("settleTimeoutMs", d.settleTimeoutMs.map word),
    ("outputPath", d.outputPath.map (Json.optional Json.string)),
    ("engine", d.engine.map fun _ => .record es)]

/-- The members of an object give a draft. -/
def IsGivenBy (d : Draft) (ms : Members) : Prop :=
  ∃ es, Fills (d.slots es) ms ∧ ∀ e, d.engine = some e → Fills e.slots es

end Draft

variable {d : Draft} {ms : Members}

theorem asPath?_optional (path : Option String) :
    asPath? (Json.optional Json.string path) = .ok path := by
  cases path <;> rfl

section Engine

variable {es : Members}

/-- The configuration of a draft, read where the job has one. -/
theorem config_of_engine (hengine : ∀ e, d.engine = some e → Fills e.slots es) (v : Json)
    (hv : (d.engine.map fun _ => Json.record es) = some v) :
    Config.ofJson v = .ok d.job.engine := by
  obtain ⟨e, he, rfl⟩ := Option.map_eq_some_iff.mp hv
  rw [Config.ofJson_fills (hengine e he), Draft.job, he]
  rfl

theorem asRecord_fields (h : Fills (d.slots es) ms)
    (hengine : ∀ e, d.engine = some e → Fills e.slots es) :
    asRecord .text fields (.record ms) = .ok ms := by
  have hscript : Admits ("scriptPath", checking asString)
      ("scriptPath", some (.string d.scriptPath)) := ⟨rfl, fun v hv => by cases hv; rfl⟩
  have hconfig : Admits ("engine", checking Config.ofJson)
      ("engine", d.engine.map fun _ => .record es) :=
    ⟨rfl, fun v hv => checking_ok (config_of_engine hengine v hv)⟩
  exact h.asRecord <| .cons hscript <| .cons (admits_map asWord64_nat) <|
    .cons (admits_map asWord64_nat) <| .cons (admits_map asWord64_nat) <|
    .cons (admits_map asPath?_optional) <| .cons hconfig .nil

end Engine

/-- **What a draft leaves out is as if nothing but the script had been said.** -/
theorem ofJson_isGivenBy (h : d.IsGivenBy ms) : ofJson (.record ms) = .ok d.job := by
  obtain ⟨es, hfills, hengine⟩ := h
  have hgiven := hfills.given
  simp only [Draft.slots, List.forall_mem_cons] at hgiven
  obtain ⟨hscript, hframes, hinterval, htimeout, hpath, hslot, -⟩ := hgiven
  have hconfig : ms.getD "engine" Config.ofJson .standard = .ok d.job.engine := by
    rw [Members.getD, hslot]
    cases he : d.engine with
    | none =>
        rw [Draft.job, he]
        rfl
    | some e => exact config_of_engine hengine (.record es) (by rw [he]; rfl)
  simp only [ofJson, asRecord_fields hfills hengine, ok_bind, get_of_lookup hscript, asString,
    getD_of_lookup hframes asWord64_nat, getD_of_lookup hinterval asWord64_nat,
    getD_of_lookup htimeout asWord64_nat, getD_of_lookup hpath asPath?_optional, hconfig]
  rfl

/-- **A job is decoded from its own document.** -/
theorem ofJson_toJson (job : Job) : ofJson job.toJson = .ok job := by
  refine ofJson_isGivenBy (d := .full job) ⟨(Config.Draft.full job.engine).slots.members, ?_, ?_⟩
  · exact ((Draft.full job).slots _).fills_members (by simp [Draft.slots])
  · rintro e ⟨⟩
    exact Slots.fills_members _ (by simp [Config.Draft.slots])

theorem readable_toJson (job : Job) : Readable job.toJson := by
  refine ⟨trivial, readable_word64 _, readable_word64 _, readable_word64 _, ?_,
    job.engine.readable_toJson, trivial⟩
  cases job.outputPath <;> trivial

@[simp] theorem reread_toJson (job : Job) : reread job.toJson = job.toJson := by
  have hpath : reread (Json.optional Json.string job.outputPath) =
      Json.optional Json.string job.outputPath := by
    cases job.outputPath <;> rfl
  simp [toJson, rereadMembers, hpath]

end Job

/-! ### Records -/

/-- The text of a moment is read back to it. -/
def Timestamp.ReadsBack (t : Timestamp) : Prop := decode Timestamp.ofJson t.toJson.render = .ok t

theorem Timestamp.ReadsBack.ofJson_toJson {t : Timestamp} (h : t.ReadsBack) :
    Timestamp.ofJson t.toJson = .ok t :=
  (decode_render Timestamp.ofJson (j := t.toJson) trivial).symm.trans h

namespace RunRecord

/-- The errors that are written: none are not. -/
def writtenErrors (r : RunRecord) : Option (List String) :=
  if r.errors.isEmpty then none else some r.errors

theorem getD_writtenErrors (r : RunRecord) : r.writtenErrors.getD [] = r.errors := by
  unfold writtenErrors
  split
  next h => rw [List.isEmpty_iff.mp h]; rfl
  next => rfl

/-- What a record gives on the wire. -/
def slots (r : RunRecord) : Slots :=
  [("spec", some r.job.toJson), ("startedAt", some r.startedAt.toJson),
    ("completedAt", some r.completedAt.toJson), ("frames", some (.nat r.frames.toNat)),
    ("snapshotCount", some (.nat r.snapshotCount.toNat)), ("status", some (.string r.status.name)),
    ("scriptHash", some (.string r.scriptHash)),
    ("transcriptHash", some (.string r.transcriptHash)), ("version", some (.string r.version)),
    ("errors", r.writtenErrors.map fun texts => .list (texts.map Json.string))]

theorem toJson_eq (r : RunRecord) : r.toJson = .record r.slots.members := by
  unfold toJson slots writtenErrors
  split <;> rfl

theorem asStatus_name (status : RunStatus) : asStatus (.string status.name) = .ok status :=
  asName_string (by cases status <;> rfl)

theorem asErrors_list (texts : List String) :
    asErrors (.list (texts.map Json.string)) = .ok texts :=
  asList_strings texts

theorem admits_some {α : Type} {name : String} {decode : Json → Decoded α} {v : Json} {a : α}
    (h : decode v = .ok a) : Admits (name, checking decode) (name, some v) :=
  ⟨rfl, fun w hw => by cases hw; exact checking_ok h⟩

variable {r : RunRecord} {ms : Members}

theorem ofJson_fills (hstart : r.startedAt.ReadsBack) (hend : r.completedAt.ReadsBack)
    (h : Fills r.slots ms) : ofJson (.record ms) = .ok r := by
  have hstart := hstart.ofJson_toJson
  have hend := hend.ofJson_toJson
  have hrecord : asRecord .text fields (.record ms) = .ok ms :=
    h.asRecord <| .cons (admits_some r.job.ofJson_toJson) <| .cons (admits_some hstart) <|
      .cons (admits_some hend) <| .cons (admits_some (asWord64_nat _)) <|
      .cons (admits_some (asWord64_nat _)) <| .cons (admits_some (asStatus_name _)) <|
      .cons (admits_some rfl) <| .cons (admits_some rfl) <| .cons (admits_some rfl) <|
      .cons (admits_map asErrors_list) .nil
  have hgiven := h.given
  simp only [slots, List.forall_mem_cons] at hgiven
  obtain ⟨hspec, hstarted, hcompleted, hframes, hcount, hstatus, hscript, htranscript, hversion,
    herrors, -⟩ := hgiven
  simp only [ofJson, hrecord, ok_bind, get_of_lookup hspec, get_of_lookup hstarted,
    get_of_lookup hcompleted, get_of_lookup hframes, get_of_lookup hcount, get_of_lookup hstatus,
    get_of_lookup hscript, get_of_lookup htranscript, get_of_lookup hversion,
    getD_of_lookup herrors asErrors_list, r.job.ofJson_toJson, hstart, hend, asWord64_nat,
    asStatus_name, asString, getD_writtenErrors]
  rfl

/-- **A record is decoded from its own document**, with errors or without. -/
theorem ofJson_toJson (hstart : r.startedAt.ReadsBack) (hend : r.completedAt.ReadsBack) :
    ofJson r.toJson = .ok r := by
  rw [toJson_eq]
  exact ofJson_fills hstart hend (r.slots.fills_members (by simp [slots]))

theorem readable_toJson (r : RunRecord) : Readable r.toJson := by
  unfold toJson
  split
  · exact ⟨r.job.readable_toJson, trivial, trivial, readable_word64 _, readable_word64 _, trivial,
      trivial, trivial, trivial, trivial⟩
  · exact ⟨r.job.readable_toJson, trivial, trivial, readable_word64 _, readable_word64 _, trivial,
      trivial, trivial, trivial, readable_strings _, trivial⟩

@[simp] theorem reread_toJson (r : RunRecord) : reread r.toJson = r.toJson := by
  unfold toJson
  split <;>
    simp [rereadMembers, Timestamp.toJson, rereadItems_strings]

end RunRecord

/-! ### Files -/

/-- A document that is read as it is written is decoded from its text as from itself. -/
theorem Json.Written.decode_eq {α : Type} {j : Json} {text : String} (h : j.Written text)
    (hreadable : Readable j) (hreread : reread j = j) (decoder : Json → Decoded α) :
    decode decoder text = decoder j := by
  rw [(h.holds hreadable).decode_eq decoder, hreread]

/-- **What is kept in files is read back, and what is left out of them has its default.**  The texts
of a configuration, of a job and, if its moments are read back, of a record are decoded to them.  A
text that holds an object with some fields of a configuration or of a job, in any order, is decoded
to the values that are given and the defaults of all others, those of a configuration inside a job
among them. -/
theorem Job.files_read_back :
    (∀ (c : Config) (text : String), c.toJson.Written text →
        decode Config.ofJson text = .ok c) ∧
      (∀ (job : Job) (text : String), job.toJson.Written text → decode ofJson text = .ok job) ∧
      (∀ (r : RunRecord) (text : String), r.startedAt.ReadsBack → r.completedAt.ReadsBack →
        r.toJson.Written text → decode RunRecord.ofJson text = .ok r) ∧
      (∀ (d : Config.Draft) (ms : Members) (text : String), Fills d.slots ms →
        Holds text (.record ms) → decode Config.ofJson text = .ok d.config) ∧
      ∀ (d : Draft) (ms : Members) (text : String), d.IsGivenBy ms →
        Holds text (.record ms) → decode ofJson text = .ok d.job := by
  refine ⟨fun c text h => ?_, fun job text h => ?_, fun r text hstart hend h => ?_,
    fun d ms text hms h => ?_, fun d ms text hms h => ?_⟩
  · exact (h.decode_eq c.readable_toJson c.reread_toJson _).trans c.ofJson_toJson
  · exact (h.decode_eq job.readable_toJson job.reread_toJson _).trans job.ofJson_toJson
  · exact (h.decode_eq r.readable_toJson r.reread_toJson _).trans
      (RunRecord.ofJson_toJson hstart hend)
  · exact (h.decode_eq _).trans (Config.ofJson_fills hms)
  · exact (h.decode_eq _).trans (ofJson_isGivenBy hms)

/-- A job of which little is given. -/
def Job.sparseDraft : Draft where
  scriptPath := "a.rhai"
  frames := some 2
  intervalMs := none
  settleTimeoutMs := none
  outputPath := some none
  engine := some ⟨none, none, none, some 3, none, none, none⟩

/-- Its members, out of order and with a comment between them. -/
def Job.sparseMembers : Members :=
  [("engine", .record [("maxArraySize", .nat 3)]), ("comment", .bool true), ("outputPath", .null),
    ("frames", .nat 2), ("scriptPath", .string "a.rhai")]

/-- A record without errors. -/
def RunRecord.sparse : RunRecord where
  job := Job.sparseDraft.job
  startedAt := ⟨1767225600, 0⟩
  completedAt := ⟨1767225600, 1000⟩
  frames := 2
  snapshotCount := 0
  status := .truncated
  scriptHash := ""
  transcriptHash := "\n"
  version := currentVersion
  errors := []

theorem Job.files_read_back_sparse :
    decode ofJson (Json.record sparseMembers).renderIndented =
        .ok { ofScript "a.rhai" with
          frames := 2, engine := { Config.standard with maxArraySize := 3 } } ∧
      decode Config.ofJson (Json.record [("maxArraySize", .nat 3)]).render =
        .ok { Config.standard with maxArraySize := 3 } ∧
      decode RunRecord.ofJson RunRecord.sparse.toJson.renderIndented = .ok RunRecord.sparse ∧
      decode ofJson RunRecord.sparse.job.toJson.render = .ok RunRecord.sparse.job ∧
      decode Config.ofJson Config.standard.toJson.renderIndented = .ok Config.standard := by
  obtain ⟨hconfig, hjob, hrecord, hconfigDraft, hjobDraft⟩ := files_read_back
  have hengine : Fills (Config.Draft.slots ⟨none, none, none, some 3, none, none, none⟩)
      [("maxArraySize", .nat 3)] := Slots.fills_members _ (by simp [Config.Draft.slots])
  have hmembers : Fills (sparseDraft.slots [("maxArraySize", .nat 3)]) sparseMembers := by
    refine ⟨?_, by decide, ?_⟩
    · simp [sparseDraft, sparseMembers, Draft.slots, Json.optional, List.lookup_cons]
    · simp [sparseDraft, sparseMembers, Draft.slots, skip]
  have hlimit : Readable (.record [("maxArraySize", .nat 3)]) :=
    ⟨readable_nat (by decide), trivial⟩
  have hsparse : Readable (.record sparseMembers) :=
    ⟨hlimit, trivial, trivial, readable_nat (by decide), trivial, trivial⟩
  refine ⟨?_, ?_, hrecord _ _ rfl rfl .indented, hjob _ _ .oneLine, hconfig _ _ .indented⟩
  · refine hjobDraft sparseDraft sparseMembers _ ⟨_, hmembers, ?_⟩ (Written.indented.holds hsparse)
    rintro e ⟨⟩
    exact hengine
  · exact hconfigDraft _ _ _ hengine (Written.oneLine.holds hlimit)

end FilterScript
