import PushBuild.Proofs.Interleaving.System
import PushBuild.Proofs.Time.Instant

/-!
# A clock that does not go back

Where the clock only moves on, what happened happened no later than now, and what a program was told
of the time is over.  The instants it shows may be known to have some property besides, such as not
to lie in leap seconds.
-/

namespace PushBuild

namespace System

variable {ι : Type} {ρ : ι → Type} [DecidableEq ι] {shown : Instant → Prop} {s s₀ : System ι ρ}
  {w : Surroundings}

/-- What holds while the clock does not go back and shows only certain instants. -/
structure Clocked (shown : Instant → Prop) (s : System ι ρ) : Prop where
  now : shown s.now
  event : ∀ {e}, e ∈ s.log → e.now ≤ s.now ∧ shown e.now
  reading : ∀ {i t}, .now t ∈ s.acts i → t ≤ s.now ∧ shown t

/-- **The run lemma** of the clock. -/
theorem Reaches.clocked (hrun : Reaches w s₀ s) (hstart : s₀.log = []) (hnow : shown s₀.now)
    (hticks : ∀ a b, w.ticks a b → a ≤ b ∧ shown b) : s.Clocked shown := by
  induction hrun with
  | refl =>
    refine ⟨hnow, fun {e} he => ?_, fun {i t} ht => ?_⟩
    · rw [hstart] at he
      exact absurd he List.not_mem_nil
    · rw [acts, hstart] at ht
      exact absurd ht List.not_mem_nil
  | step _ hstep ih =>
    cases hstep with
    | act answer t hpool hanswer =>
      refine ⟨ih.now, fun {e} he => ?_, fun {i time} htime => ?_⟩
      · -- the act itself happened now
        rcases List.mem_cons.mp he with rfl | he
        · exact ⟨Instant.le_refl _, ih.now⟩
        · exact ih.event he
      · -- a reading of the clock shows the time as it is
        rcases mem_acts_acted htime with heq | htime
        · rw [← heq] at hanswer
          rw [hanswer.now_eq]
          exact ⟨Instant.le_refl _, ih.now⟩
        · exact ih.reading htime
    | deed d _ =>
      refine ⟨ih.now, fun {e} he => ?_, fun htime => ih.reading htime⟩
      rcases List.mem_cons.mp he with rfl | he
      · exact ⟨Instant.le_refl _, ih.now⟩
      · exact ih.event he
    | tick n hn =>
      -- the clock moves on, so what was before stays before
      obtain ⟨hle, hshown⟩ := hticks _ _ hn
      refine ⟨hshown, fun he => ?_, fun htime => ?_⟩
      · obtain ⟨hbefore, hplain⟩ := ih.event he
        exact ⟨Instant.le_trans hbefore hle, hplain⟩
      · obtain ⟨hbefore, hplain⟩ := ih.reading htime
        exact ⟨Instant.le_trans hbefore hle, hplain⟩

end System

end PushBuild
