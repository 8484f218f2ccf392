/-
What a computation asked for, and what it was answered.

An `Exchange` is a request with its reply.  `Goes` says that a computation makes some exchanges in turn
and is left with a rest.  It is the reading of a tree along one branch, so the rule of composition is
a case distinction: the branch leaves off inside the first part, or goes through it into the second.
-/
import FilterScript.Proofs.Thread.Conduct

namespace FilterScript

/-- A request and its reply. -/
structure Exchange where
  request : Request
  reply : request.Reply

/-- The report of an outcome. -/
def Exchange.report (o : Outcome) : Exchange := ⟨.finish o, ()⟩

namespace Thread

variable {α β : Type} {t u v : Thread α} {xs ys : List Exchange}

/-- A computation makes some exchanges and is left with a rest. -/
inductive Goes : Thread α → List Exchange → Thread α → Prop where
  | stay (t : Thread α) : Goes t [] t
  | ask {r : Request} {k : r.Reply → Thread α} {x : r.Reply} {xs : List Exchange} {u : Thread α}
      (h : Goes (k x) xs u) : Goes (ask r k) (⟨r, x⟩ :: xs) u

namespace Goes

theorem append (h : Goes t xs u) (h' : Goes u ys v) : Goes t (xs ++ ys) v := by
  induction h with
  | stay t => exact h'
  | ask _ ih => exact .ask (ih h')

/-- A branch of the first part is one of the whole; where it is done the second part begins. -/
theorem bind (h : Goes t xs u) (f : α → Thread β) : Goes (t.bind f) xs (u.bind f) := by
  induction h with
  | stay t => exact .stay _
  | ask _ ih => exact .ask ih

/-- A branch of a composed computation leaves off inside the first part or behind it. -/
theorem of_bind {t : Thread α} {f : α → Thread β} {v : Thread β} (h : Goes (t.bind f) xs v) :
    (∃ u, Goes t xs u ∧ v = u.bind f) ∨
      ∃ ys zs a, xs = ys ++ zs ∧ Goes t ys (.done a) ∧ Goes (f a) zs v := by
  induction t generalizing xs with
  | done a => exact .inr ⟨[], xs, a, rfl, .stay _, h⟩
  | crash =>
      cases h
      exact .inl ⟨.crash, .stay _, rfl⟩
  | spin =>
      cases h
      exact .inl ⟨.spin, .stay _, rfl⟩
  | ask r k ih =>
      cases h with
      | stay => exact .inl ⟨.ask r k, .stay _, rfl⟩
      | @ask _ _ x xs _ h =>
          rcases ih x h with ⟨u, hu, rfl⟩ | ⟨ys, zs, a, rfl, ha, hf⟩
          · exact .inl ⟨u, .ask hu, rfl⟩
          · exact .inr ⟨⟨r, x⟩ :: ys, zs, a, rfl, .ask ha, hf⟩

/-- A composed computation that is done went through both parts. -/
theorem of_bind_done {t : Thread α} {f : α → Thread β} {b : β} (h : Goes (t.bind f) xs (.done b)) :
    ∃ ys zs a, xs = ys ++ zs ∧ Goes t ys (.done a) ∧ Goes (f a) zs (.done b) := by
  rcases h.of_bind with ⟨u, hu, he⟩ | there
  · cases u with
    | done a => exact ⟨xs, [], a, (List.append_nil _).symm, hu, he ▸ .stay _⟩
    | crash => cases he
    | spin => cases he
    | ask r k => cases he
  · exact there

/-- Behind some exchanges there is one rest, and what follows starts from it. -/
theorem rest (h : Goes t xs u) (h' : Goes t (xs ++ ys) v) : Goes u ys v := by
  induction h with
  | stay t => exact h'
  | ask _ ih =>
      cases h' with
      | ask h' => exact ih h'

/-- A computation that is done asks for nothing. -/
theorem of_done {a : α} (h : Goes (.done a) xs u) : xs = [] ∧ u = .done a := by
  cases h
  exact ⟨rfl, rfl⟩

/-- So does one that went away. -/
theorem of_crash (h : Goes .crash xs u) : xs = [] ∧ u = .crash := by
  cases h
  exact ⟨rfl, rfl⟩

end Goes

/-- A computation that keeps to a protocol keeps to it along a branch: what it asks for is allowed, and
so is all that the rest may ask for. -/
theorem Follows.goes {σ : Type} {P : Protocol σ} {Q : σ → α → Prop} {s : σ} (h : t.Follows P Q s)
    (hg : Goes t xs u) :
    (∀ x ∈ xs, ∃ s, P.Allows s x.request) ∧ ∃ s', u.Follows P Q s' := by
  induction hg generalizing s with
  | stay t => exact ⟨List.forall_mem_nil _, s, h⟩
  | @ask r k x xs u _ ih =>
      obtain ⟨hr, hk⟩ := h.of_ask
      obtain ⟨hallowed, hrest⟩ := ih (hk x)
      refine ⟨fun y hy => ?_, hrest⟩
      rcases List.mem_cons.mp hy with rfl | hy
      · exact ⟨s, hr⟩
      · exact hallowed y hy

end Thread

end FilterScript
