/-!
# Computations that can fail

What a computation made of two is when they fail or succeed, and what becomes of a loop that ends
with the first failure.
-/

namespace PlotMiner

variable {ε α β γ : Type}

theorem bind_eq_ok {x : Except ε α} {f : α → Except ε β} {b : β} :
    x >>= f = .ok b ↔ ∃ a, x = .ok a ∧ f a = .ok b := by
  cases x with
  | error e => simp [bind, Except.bind]
  | ok a => simp [bind, Except.bind]

theorem exists_eq_ok_iff {x : Except ε α} : (∃ a, x = .ok a) ↔ ∀ e, x ≠ .error e := by
  cases x with
  | error e => simp
  | ok a => simp

theorem exists_foldlM {f : β → α → Except ε β} {l : List α}
    (hstep : ∀ b, ∀ a ∈ l, ∃ b', f b a = .ok b') (b : β) : ∃ b', l.foldlM f b = .ok b' := by
  induction l generalizing b with
  | nil => exact ⟨b, rfl⟩
  | cons a l ih =>
    obtain ⟨b', hfirst⟩ := hstep b a List.mem_cons_self
    obtain ⟨last, hrest⟩ := ih (fun b c hlater => hstep b c (List.mem_cons_of_mem a hlater)) b'
    exact ⟨last, bind_eq_ok.2 ⟨b', hfirst, hrest⟩⟩

section

variable {f : β → α → Except ε β} {g : α → Except ε γ}
  (hstep : ∀ b a e, f b a = .error e ↔ g a = .error e) {l : List α} {b : β}

include hstep

/-- A loop whose steps fail as `g` does succeeds when `g` does everywhere. -/
theorem exists_foldlM_iff : (∃ b', l.foldlM f b = .ok b') ↔ ∀ a ∈ l, ∃ c, g a = .ok c := by
  have hsucceeds (b a) : (∃ b', f b a = .ok b') ↔ ∃ c, g a = .ok c := by
    simp only [exists_eq_ok_iff, ne_eq, hstep]
  constructor
  · rintro ⟨last, hmade⟩
    induction l generalizing b with
    | nil => simp
    | cons a l ih =>
      obtain ⟨b', hfirst, hrest⟩ := bind_eq_ok.1 hmade
      exact List.forall_mem_cons.2 ⟨(hsucceeds b a).1 ⟨b', hfirst⟩, ih hrest⟩
  · intro hfine
    exact exists_foldlM (fun b a hmem => (hsucceeds b a).2 (hfine a hmem)) b

/-- A loop whose steps fail as `g` does fails at the first place where `g` does. -/
theorem foldlM_eq_error_iff {e : ε} :
    l.foldlM f b = .error e ↔
      ∃ before a after, l = before ++ a :: after ∧ (∀ c ∈ before, ∃ v, g c = .ok v) ∧
        g a = .error e := by
  constructor
  · intro hfailed
    induction l generalizing b with
    | nil => cases hfailed
    | cons a l ih =>
      rw [List.foldlM_cons] at hfailed
      cases hfirst : f b a with
      | error e' =>
        rw [hfirst] at hfailed
        obtain rfl := Except.error.inj hfailed
        exact ⟨[], a, l, rfl, by simp, (hstep b a e').1 hfirst⟩
      | ok b' =>
        rw [hfirst] at hfailed
        obtain ⟨before, a', after, rfl, hfine, hfailed⟩ := ih hfailed
        have hhere : ∃ v, g a = .ok v := by
          rw [exists_eq_ok_iff]
          intro e' hwrong
          rw [(hstep b a e').2 hwrong] at hfirst
          cases hfirst
        exact ⟨a :: before, a', after, rfl, List.forall_mem_cons.2 ⟨hhere, hfine⟩, hfailed⟩
  · rintro ⟨before, a, after, rfl, hfine, hfailed⟩
    obtain ⟨b', hmade⟩ := (exists_foldlM_iff hstep (b := b)).2 hfine
    rw [List.foldlM_append, hmade]
    change (a :: after).foldlM f b' = _
    rw [List.foldlM_cons, (hstep b' a e).2 hfailed]
    rfl

end

end PlotMiner
