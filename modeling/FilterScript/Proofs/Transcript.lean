/-
The lines of a transcript.

A message is written on a line of its own: no document contains a line break, whatever the
strings in it contain.  So the lines can be told apart, and each is decoded by itself.
-/
import FilterScript.Transcript
import FilterScript.Proofs.Message

namespace FilterScript.Transcript

open Json

/-- The lines of a list of messages are put one behind the other. -/
theorem toList_lines (t : Transcript) :
    t.lines.toList = t.messages.flatMap fun m => m.toJson.compact ++ ['\n'] := by
  simp [lines, List.flatMap_def, render, Function.comp_def]

/-- **The lines can be told apart.**  Behind the last line break there is nothing. -/
theorem splitOn_lines (t : Transcript) :
    t.lines.toList.splitOn '\n' = t.messages.map (fun m => m.toJson.compact) ++ [[]] := by
  rw [toList_lines]
  induction t.messages with
  | nil => rfl
  | cons m ms ih =>
      rw [List.flatMap_cons, List.append_assoc, List.singleton_append,
        List.splitOn_append_cons_self_of_not_mem (newline_not_mem_compact _), ih]
      rfl

theorem map_decode {ms : List WorkerMessage}
    (h : ∀ m ∈ ms, ∀ x ∈ m.singles, ReadsBack x) :
    (ms.map fun m => m.toJson.compact).map
      (fun line => decode WorkerMessage.ofJson (String.ofList line)) = ms.map .ok := by
  rw [List.map_map]
  refine List.map_congr_left fun m hm => ?_
  rw [Function.comp_apply]
  exact WorkerMessage.decode_render (h m hm)

/-- **The text of a transcript determines its messages.**  The numbers are finite and their texts
are read back.  Then the text falls into one line a message, none of them empty, and the lines are
decoded to the messages; so no other such messages have the same text. -/
theorem lines_determine {t : Transcript}
    (hfinite : ∀ m ∈ t.messages, ∀ x ∈ m.singles, x.isFinite = true)
    (hreads : ∀ m ∈ t.messages, ∀ x ∈ m.singles, x.isFinite = true → ReadsBack x) :
    (∃ lines, t.lines.toList.splitOn '\n' = lines ++ [[]] ∧ (∀ line ∈ lines, line ≠ []) ∧
      lines.map (fun line => decode WorkerMessage.ofJson (String.ofList line)) =
        t.messages.map .ok) ∧
      ∀ u : Transcript, (∀ m ∈ u.messages, ∀ x ∈ m.singles, x.isFinite = true) →
        (∀ m ∈ u.messages, ∀ x ∈ m.singles, x.isFinite = true → ReadsBack x) →
        u.lines = t.lines → u.messages = t.messages := by
  have hback {u : Transcript} (hfinite : ∀ m ∈ u.messages, ∀ x ∈ m.singles, x.isFinite = true)
      (hreads : ∀ m ∈ u.messages, ∀ x ∈ m.singles, x.isFinite = true → ReadsBack x) :
      ∀ m ∈ u.messages, ∀ x ∈ m.singles, ReadsBack x :=
    fun m hm x hx => hreads m hm x hx (hfinite m hm x hx)
  refine ⟨⟨_, splitOn_lines t, ?_, map_decode (hback hfinite hreads)⟩, ?_⟩
  · intro line hline
    obtain ⟨m, hm, rfl⟩ := List.mem_map.mp hline
    obtain ⟨c, cs, hhead, -⟩ :=
      compact_head (WorkerMessage.readable_toJson (hback hfinite hreads m hm))
    rw [hhead]
    exact List.cons_ne_nil c cs
  · intro u hfinite' hreads' hlines
    have hsplit := splitOn_lines u
    rw [hlines, splitOn_lines t] at hsplit
    have hdecoded := map_decode (hback hfinite' hreads')
    rw [← List.append_cancel_right hsplit, map_decode (hback hfinite hreads)] at hdecoded
    exact ((List.map_inj_right fun _ _ h => Except.ok.inj h).mp hdecoded).symm

/-- A transcript with line breaks and quotes in its strings. -/
def brokenStrings : Transcript where
  messages := [.widget "a\n\"b\"" (.radio ["\n", ""]),
    .render { Filter.initial with alpha := Single.ofRatio false 1 10 }, .error "\n", .done]
  frames := 1
  finished := true
  diagnostics := []

theorem lines_determine_brokenStrings :
    ∃ lines, brokenStrings.lines.toList.splitOn '\n' = lines ++ [[]] ∧ lines.length = 4 ∧
      lines.map (fun line => decode WorkerMessage.ofJson (String.ofList line)) =
        brokenStrings.messages.map .ok := by
  have hfinite : ∀ m ∈ brokenStrings.messages, ∀ x ∈ m.singles, x.isFinite = true := by
    decide +kernel
  have hreads : ∀ m ∈ brokenStrings.messages, ∀ x ∈ m.singles,
      x.isFinite = true → ReadsBack x := by
    decide +kernel
  obtain ⟨⟨lines, hsplit, -, hdecoded⟩, -⟩ := lines_determine hfinite hreads
  have hlength := congrArg List.length hdecoded
  rw [List.length_map, List.length_map] at hlength
  exact ⟨lines, hsplit, hlength, hdecoded⟩

end FilterScript.Transcript
