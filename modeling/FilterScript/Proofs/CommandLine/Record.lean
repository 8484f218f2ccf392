/-
The record and the transcript of a run, on the files of a machine.

A command that runs a job writes twice, and the second writing is only reached over a first one that
went well: so when the record is saved, the transcript is in its file.  The record lies beside it
under another name, and what is written beside a file leaves the file as it is.
-/
import FilterScript.Proofs.CommandLine.Files
import FilterScript.Proofs.Job.Wire

namespace FilterScript

namespace RunRecord

/-- **The digest of the transcript is found in the text of a record.** -/
theorem holds_transcriptHash (r : RunRecord) : ∃ ms,
    Json.Holds r.toJson.renderIndented (.record ms) ∧
      ms.lookup "transcriptHash" = some (.string r.transcriptHash) := by
  refine ⟨r.slots.members, ?_, ?_⟩
  · rw [← toJson_eq]
    simpa using Json.Written.indented.holds r.readable_toJson
  · exact (r.slots.fills_members (by simp [slots])).given
      ("transcriptHash", some (.string r.transcriptHash)) (by simp [slots])

end RunRecord

namespace CommandLine

variable {σ : Type} {M : Shell.Machine σ} {s : σ} {job : Job} {platform : Platform}
  {path text : String} {reply : Except FileFault Unit}

/-! ### The course of a job -/

/-- What follows the saving of a record: nothing is asked any more. -/
def conclude (record : RunRecord) (reply : Except FileFault Unit) : Task Unit := do
  orFail (fun (f : FileFault) => "Failed to write metadata: " ++ f.message) reply
  if record.status = .failed then
    throw ("script failed: " ++ String.intercalate "; " record.errors)

theorem quiet_conclude (record : RunRecord) (reply : Except FileFault Unit) :
    Quiet M (conclude record reply) := by
  refine quiet_orFail_bind fun _ => ?_
  split
  · exact quiet_throw _
  · exact quiet_pure _

/-- A job whose transcript goes to a file asks one thing after the other. -/
theorem runJob_eq (hpath : job.outputPath = some path) : runJob job platform = (do
    let present ← send (.look job.scriptPath)
    orFail Job.Fault.message (job.validate fun _ => present)
    let reply ← send (.read job.scriptPath)
    let script ← orFail
      (fun (_ : FileFault) => "failed to read script " ++ Path.quoted job.scriptPath) reply
    let startedAt ← send .time
    let transcript ← orFail Stall.message
      ((Session.ofConfig job.engine platform).runHeadless script job.allowance).1
    let reply ← send (.write path transcript.lines)
    orFail (fun (_ : FileFault) => "failed to write " ++ Path.quoted path) reply
    let completedAt ← send .time
    let record := RunRecord.ofTranscript job startedAt completedAt script transcript
    let reply ← send (.write job.recordPath record.toJson.renderIndented)
    conclude record reply) := by
  unfold runJob
  simp only [hpath]
  rfl

section Course

variable (M : Shell.Machine σ) (job : Job) (platform : Platform) (path script : String)
  (transcript : Transcript) (s : σ)

/-- The machine when it has been asked for the script of a job. -/
def asked : σ := (M.answer (.read job.scriptPath) (M.answer (.look job.scriptPath) s).2).2

/-- The machine when the start of the run has been noted, and its transcript written. -/
def transcribed : σ :=
  (M.answer (.write path transcript.lines) (M.answer .time (asked M job s)).2).2

/-- The record of the run. -/
def recordOf : RunRecord :=
  .ofTranscript job (M.answer .time (asked M job s)).1
    (M.answer .time (transcribed M job path transcript s)).1 script transcript

/-- What is answered to the saving of the record, and the machine behind it. -/
def saved : Except FileFault Unit × σ :=
  M.answer (.write job.recordPath (recordOf M job path script transcript s).toJson.renderIndented)
    (M.answer .time (transcribed M job path transcript s)).2

/-- A run of a job that comes to the saving of its record: the job is valid, its script is read and
says a transcript, and that is written. -/
structure Saves : Prop where
  valid : job.validate (fun _ => (M.answer (.look job.scriptPath) s).1) = .ok ()
  read : (M.answer (.read job.scriptPath) (M.answer (.look job.scriptPath) s).2).1 = .ok script
  ran : ((Session.ofConfig job.engine platform).runHeadless script job.allowance).1 = .ok transcript
  written : (M.answer (.write path transcript.lines) (M.answer .time (asked M job s)).2).1 = .ok ()

end Course

/-- **What is written comes behind a transcript that was written**, unless it is the transcript, and
that went wrong. -/
theorem exists_saves {other : String} (hpath : job.outputPath = some path)
    (hgood : other = path → reply = .ok ())
    (h : ⟨.write other text, reply⟩ ∈ (runJob job platform).run.answered M s) :
    ∃ script transcript, Saves M job platform path script transcript s := by
  rw [runJob_eq hpath] at h
  obtain hlook | h := mem_answered_send_bind h
  · cases hlook
  obtain ⟨_, hvalid, h⟩ := mem_answered_orFail_bind h
  obtain hread | h := mem_answered_send_bind h
  · cases hread
  obtain ⟨script, hscript, h⟩ := mem_answered_orFail_bind h
  obtain htime | h := mem_answered_send_bind h
  · cases htime
  obtain ⟨transcript, hran, h⟩ := mem_answered_orFail_bind h
  obtain hwrite | h := mem_answered_send_bind h
  · obtain ⟨hother, -, hreply⟩ := Shell.Answered.write_inj.mp hwrite
    exact ⟨script, transcript, hvalid, hscript, hran, hreply.symm.trans (hgood hother)⟩
  obtain ⟨_, hwritten, -⟩ := mem_answered_orFail_bind h
  exact ⟨script, transcript, hvalid, hscript, hran, hwritten⟩

namespace Saves

variable {script : String} {transcript : Transcript}

/-- **What passes in such a run, and what it leaves.**  The record is saved last, and whether the
script failed is only said behind that. -/
theorem course (h : Saves M job platform path script transcript s)
    (hpath : job.outputPath = some path) :
    let record := recordOf M job path script transcript s
    let after := saved M job path script transcript s
    (runJob job platform).run.answered M s =
        [⟨.look job.scriptPath, (M.answer (.look job.scriptPath) s).1⟩,
          ⟨.read job.scriptPath, .ok script⟩, ⟨.time, record.startedAt⟩,
          ⟨.write path transcript.lines, .ok ()⟩, ⟨.time, record.completedAt⟩,
          ⟨.write job.recordPath record.toJson.renderIndented, after.1⟩] ∧
      (runJob job platform).run.runWith M s = (conclude record after.1).run.runWith M after.2 := by
  intro record after
  have hwritten := h.written
  unfold asked at hwritten
  have hquiet : Quiet M (conclude record after.1) := quiet_conclude _ _
  rw [runJob_eq hpath]
  constructor
  · rw [answered_send_bind, h.valid, orFail_ok_bind, answered_send_bind, h.read, orFail_ok_bind,
      answered_send_bind, h.ran, orFail_ok_bind, answered_send_bind, hwritten, orFail_ok_bind,
      answered_send_bind, answered_send_bind, ← (hquiet after.2).1]
    rfl
  · rw [runWith_send_bind, h.valid, orFail_ok_bind, runWith_send_bind, h.read, orFail_ok_bind,
      runWith_send_bind, h.ran, orFail_ok_bind, runWith_send_bind, hwritten, orFail_ok_bind]
    rfl

/-- Nothing else is written to the path of the record. -/
theorem eq_of_mem (h : Saves M job platform path script transcript s)
    (hpath : job.outputPath = some path)
    (hne : job.recordPath ≠ path)
    (hmem : ⟨.write job.recordPath text, reply⟩ ∈ (runJob job platform).run.answered M s) :
    text = (recordOf M job path script transcript s).toJson.renderIndented ∧
      reply = (saved M job path script transcript s).1 := by
  rw [(h.course hpath).1] at hmem
  simp only [List.mem_cons, List.not_mem_nil, or_false] at hmem
  obtain hlook | hread | htime | hwrite | htime | hsave := hmem
  · cases hlook
  · cases hread
  · cases htime
  · exact absurd (Shell.Answered.write_inj.mp hwrite).1 hne
  · cases htime
  · exact (Shell.Answered.write_inj.mp hsave).2

theorem left_eq (h : Saves M job platform path script transcript s)
    (hpath : job.outputPath = some path) :
    ((runJob job platform).run.runWith M s).2 = (saved M job path script transcript s).2 := by
  rw [(h.course hpath).2]
  exact (quiet_conclude _ _ _).2

/-- **The transcript is left as it was written.** -/
theorem text_left (h : Saves M job platform path script transcript s) (hM : M.Lawful)
    (hpath : job.outputPath = some path) (hsiblings : Path.Siblings path job.recordPath) :
    M.text ((runJob job platform).run.runWith M s).2 path = .ok transcript.lines := by
  rw [h.left_eq hpath]
  refine hM.apart _ _ _ _ _ hsiblings ?_
  rw [hM.timeless]
  exact hM.written _ _ _ h.written

end Saves

/-- **A record never takes the place of its transcript.**  Where the transcript goes to a path that
ends in a name, whatever that is, the record goes to another path in the same directory.  A run that
has written its transcript comes to the saving of its record, whatever became of the script.
Whenever a run comes there, and whether the saving goes well or not, the file of the transcript
holds in the end what the script said; and if the record was saved, its file holds the digest of
just that. -/
theorem record_spares_transcript (hM : M.Lawful) (hpath : job.outputPath = some path)
    (hname : (Path.fileName? path.toList).isSome) :
    (job.recordPath ≠ path ∧ Path.Siblings path job.recordPath) ∧
      ∀ s : σ,
        (∀ lines, ⟨.write path lines, .ok ()⟩ ∈ (runJob job platform).run.answered M s →
          ∃ text reply,
            ⟨.write job.recordPath text, reply⟩ ∈ (runJob job platform).run.answered M s) ∧
        ∀ (text : String) (reply : Except FileFault Unit),
          ⟨.write job.recordPath text, reply⟩ ∈ (runJob job platform).run.answered M s →
          ∃ script transcript,
            ⟨.read job.scriptPath, .ok script⟩ ∈ (runJob job platform).run.answered M s ∧
            ((Session.ofConfig job.engine platform).runHeadless script job.allowance).1 =
              .ok transcript ∧
            M.text ((runJob job platform).run.runWith M s).2 path = .ok transcript.lines ∧
            (reply = .ok () →
              M.text ((runJob job platform).run.runWith M s).2 job.recordPath = .ok text ∧
              ∃ ms, Json.Holds text (.record ms) ∧
                ms.lookup "transcriptHash" = some (.string (Digest.ofString transcript.lines))) := by
  have hsiblings := Job.siblings_recordPath hpath hname
  have hne : job.recordPath ≠ path := hsiblings.ne.symm
  refine ⟨⟨hne, hsiblings⟩, fun s => ⟨fun lines hwritten => ?_, fun text reply hsaved => ?_⟩⟩
  · obtain ⟨script, transcript, hsaves⟩ := exists_saves hpath (fun _ => rfl) hwritten
    rw [(hsaves.course hpath).1]
    exact ⟨_, _, List.mem_of_getLast? rfl⟩
  · obtain ⟨script, transcript, hsaves⟩ := exists_saves hpath (fun h => absurd h hne) hsaved
    refine ⟨script, transcript, ?_, hsaves.ran, hsaves.text_left hM hpath hsiblings, ?_⟩
    · rw [(hsaves.course hpath).1]
      simp
    · rintro rfl
      obtain ⟨rfl, hreply⟩ := hsaves.eq_of_mem hpath hne hsaved
      rw [hsaves.left_eq hpath]
      exact ⟨hM.written _ _ _ hreply.symm, RunRecord.holds_transcriptHash _⟩

/-- A job whose transcript is named like a record, with nothing in front of that. -/
def hiddenJob : Job := { Job.ofScript "a.rhai" with outputPath := some "runs/.meta.json" }

/-- Its files.  The script is broken off. -/
def hiddenDesk : Desk := ⟨⟨[("a.rhai", "1 +"), ("runs/notes", "")]⟩, ""⟩

theorem record_spares_transcript_hidden :
    let M := Desk.machine ⟨0, 0⟩
    let (result, left) := (runJob hiddenJob .usual).run.runOn ⟨0, 0⟩ hiddenDesk
    result.isOk = false ∧ ∃ text script transcript,
      ⟨.write "runs/.meta.meta.json" text, .ok ()⟩ ∈
          (runJob hiddenJob .usual).run.answered M hiddenDesk ∧
        ((Session.ofConfig .standard).runHeadless script hiddenJob.allowance).1 = .ok transcript ∧
        M.text left "runs/.meta.json" = .ok transcript.lines ∧
        M.text left "runs/.meta.meta.json" = .ok text ∧
        ∃ ms, Json.Holds text (.record ms) ∧
          ms.lookup "transcriptHash" = some (.string (Digest.ofString transcript.lines)) := by
  intro M
  have hpath : hiddenJob.outputPath = some "runs/.meta.json" := rfl
  have hspares := @record_spares_transcript Desk _ hiddenJob .usual _ (Desk.lawful_machine ⟨0, 0⟩)
    hpath (by decide)
  obtain ⟨text, hsaved⟩ : ∃ text, ⟨.write "runs/.meta.meta.json" text, .ok ()⟩ ∈
      (runJob hiddenJob .usual).run.answered M hiddenDesk :=
    Shell.Answered.exists_of_any_wrote (by decide +kernel)
  obtain ⟨script, transcript, -, hran, hkept, hrecord⟩ := (hspares.2 hiddenDesk).2 _ _ hsaved
  obtain ⟨htext, hdigest⟩ := hrecord rfl
  rw [Desk.runOn_eq_runWith]
  exact ⟨by decide +kernel, text, script, transcript, hsaved, hran, hkept, htext, hdigest⟩

end CommandLine

end FilterScript
