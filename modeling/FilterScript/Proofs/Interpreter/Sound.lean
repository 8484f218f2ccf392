/-
Every move keeps the invariant.
-/
import FilterScript.Proofs.Interpreter.Sound.Frame
import FilterScript.Proofs.Interpreter.Sound.Replace

namespace FilterScript

namespace System

/-- Every move keeps the invariant. -/
theorem Sound.moves {S T : System} {ns : List Note} (h : Sound S) (hm : Moves S ns T) :
    Sound T := by
  cases hm with
  | flag s script moment => exact h.flag rfl (fun _ _ => Iff.rfl) rfl rfl
  | forget s script moment => exact h.forget
  | begin s script moment hserved => exact h.begin rfl rfl rfl nofun
  | refuse s script moment reason hrefused =>
      exact h.begin rfl rfl rfl fun _ he => HostPhase.refused.inj he ▸ hrefused
  | fail s reason => exact h.fail
  | collect s purpose => exact h.plain rfl rfl (fun _ => rfl) rfl rfl rfl
  | settle s => exact h.plain rfl rfl (fun _ => rfl) rfl rfl rfl
  | receive hr hphase =>
      refine h.receive ?_ hr
      rcases hphase with ⟨purpose, rfl⟩ | rfl <;> rfl
  | hand s => exact h.plain rfl rfl (fun _ => rfl) rfl rfl rfl
  | skip s moment hc => exact h.plain rfl rfl (fun _ => rfl) rfl rfl rfl
  | hold s moment hc => exact h.hold hc
  | tick s moment => exact h.tick
  | release s moment awaited => exact h.release
  | settled s hs => exact h.plain rfl rfl (fun _ => rfl) rfl rfl rfl
  | giveUp s => exact h.plain rfl rfl (fun _ => rfl) rfl rfl rfl
  | tend s f => exact h.plain rfl rfl (fun _ => rfl) rfl rfl rfl
  | diagnose s => exact h.plain rfl rfl (fun _ => rfl) rfl rfl rfl
  | leave s => exact h.flag rfl (fun _ _ => Iff.rfl) rfl rfl
  | vacate s => exact h.vacate
  | stop s => exact h.stop
  | thread hs phase => exact h.thread hs
  | wait s phase time =>
      exact h.congr (fun _ => rfl) rfl rfl rfl (fun _ => rfl) (fun _ _ hb => hb) id h.vacant
        h.occupied fun _ => id

/-- **The invariant holds at every moment of every history.** -/
theorem sound_play (config : Config) (platform : Platform) (ms : List Move) :
    Sound ((ofConfig config platform).play ms).1 :=
  play_induction (P := fun _ S => Sound S) (H := []) (fun h hm => h.moves hm)
    (sound_ofConfig config platform) ms

end System

end FilterScript
