import Mathlib.Logic.Relation
import PushBuild.Proofs.Recovery.Ends
import PushBuild.Proofs.Recovery.Settle

/-!
# Programs that do what is decided

A pass decides bit by bit, on what it read, and it goes on to write what it decided when it read.
While nobody else writes, all this comes to looking at the store as it is, deciding, writing, and
starting over.

1. **Following.**  A program follows a decision if it makes only the writes that are decided one
   after the other, and ends only where there is nothing left to write, unless a call failed
   (`Follows`).
2. **Rules** (`followsAt_…`).  One for each way a program can start: it reads, it writes, it fails.
3. **Turns** (`FollowsAt.handover`).  A program whose parts make the writes of one decision.
4. **Composition** (`Follows.bind`).  A sequence follows the decisions of its parts one after the
   other, if what the second writes leaves the first with nothing to do.
5. **Recovery** (`Follows.recover`).  A program that is blocked hands over to another one.
-/

namespace PushBuild

open Relation

/-! ## Following -/

/-- One write that is decided. -/
def Writes {α : Type} (key : ObjectKey) (d : MemoryStore → Decision α) (v v' : MemoryStore) :
    Prop :=
  ∃ w, d v = .error (.writes w) ∧ v' = w.apply key v

/-- The store `s` has become `t` by writes that were decided; if there was nothing to write, it is
the same. -/
structure Advanced {α : Type} (key : ObjectKey) (fails : Prop) (d : MemoryStore → Decision α)
    (s t : MemoryStore) : Prop where
  serving : t.Serving fails
  writes : ReflTransGen (Writes key d) s.contents t.contents
  quiet : (d s.contents).Settled → t = s

namespace Advanced

variable {α β : Type} {key : ObjectKey} {fails : Prop} {d : MemoryStore → Decision α}
  {d' : MemoryStore → Decision β} {s t u : MemoryStore}

/-- Where nothing is written, the decided writes were followed as far as that goes. -/
theorem refl (h : s.Serving fails) : Advanced key fails d s s := ⟨h, .refl, fun _ => rfl⟩

/-- What was followed in two stretches was followed. -/
theorem trans (h : Advanced key fails d s t) (h' : Advanced key fails d t u) :
    Advanced key fails d s u := by
  refine ⟨h'.serving, h.writes.trans h'.writes, fun hsettled => ?_⟩
  -- where there was nothing to write, neither stretch wrote anything
  obtain rfl := h.quiet hsettled
  exact h'.quiet hsettled

/-- One write. -/
theorem one (h : t.Serving fails) {w : Write} (hw : d s.contents = .error (.writes w))
    (ht : t.contents = w.apply key s.contents) : Advanced key fails d s t :=
  ⟨h, .single ⟨w, hw, ht⟩, fun hsettled => absurd hw (hsettled w)⟩

/-- Where nothing was written, another decision that has the same writes to make has made none. -/
theorem same (h : Advanced key fails d s t) (hcontents : t.contents = s.contents)
    (hd : ∀ w, d s.contents = .error (.writes w) → d' s.contents = .error (.writes w)) :
    Advanced key fails d' s t :=
  ⟨h.serving, by rw [hcontents], fun hsettled => h.quiet fun w hw => hsettled w (hd w hw)⟩

/-- What writes keep holds after them. -/
theorem invariant (h : Advanced key fails d s t) {I : MemoryStore → Prop} (hI : I s.contents)
    (hkeeps : ∀ v w, I v → d v = .error (.writes w) → I (w.apply key v)) : I t.contents := by
  have hwrites := h.writes
  generalize t.contents = v at hwrites ⊢
  induction hwrites with
  | refl => exact hI
  | tail _ hstep ih =>
    obtain ⟨w, hw, rfl⟩ := hstep
    exact hkeeps _ w ih hw

/-- Writes that are decided by a part are decided by the whole, as long as it is the part's turn.
Whether it is its turn is said by an invariant, which the part's own writes keep. -/
theorem lift (h : Advanced key fails d s t) {I : MemoryStore → Prop} (hI : I s.contents)
    (hkeeps : ∀ v w, I v → d v = .error (.writes w) →
      I (w.apply key v) ∧ d' v = .error (.writes w)) :
    Advanced key fails d' s t := by
  refine ⟨h.serving, ?_, fun hsettled => h.quiet fun w hw => hsettled w (hkeeps _ w hI hw).2⟩
  suffices hboth : I t.contents ∧ ReflTransGen (Writes key d') s.contents t.contents from hboth.2
  have hwrites := h.writes
  generalize t.contents = v at hwrites ⊢
  induction hwrites with
  | refl => exact ⟨hI, .refl⟩
  | tail _ hstep ih =>
    obtain ⟨w, hw, rfl⟩ := hstep
    obtain ⟨hI', hw'⟩ := hkeeps _ w ih.1 hw
    exact ⟨hI', ih.2.tail ⟨w, hw', rfl⟩⟩

/-- A store stays sound. -/
theorem sound (h : Advanced key fails d s t) (hd : Within key (KeepsSound key) d)
    (hs : Sound key s.contents) : Sound key t.contents :=
  h.invariant hs fun v w hv hw => hd v w hw hv

end Advanced

section

variable {α β γ δ : Type} (key : ObjectKey) (now : Instant) (fails : Prop)

/-- The program ends having written what was decided, where nothing is left to write; or it fails as
was decided, or because a call failed. -/
def FollowsAt (s : MemoryStore) (p : Pass α) (d : MemoryStore → Decision β)
    (Q : α → β → MemoryStore → Prop) : Prop :=
  Finishes now fails p
    (fun a t => Advanced key fails d s t ∧ ∃ b, d t.contents = .ok b ∧ Q a b t.contents)
    (fun e t => Advanced key fails d s t ∧
      (d t.contents = .error (.failed e) ∨ fails ∧ ∃ e', e = .store e')) s

/-- The program does so wherever it is started with a store that serves and is sound and where `P`
holds. -/
def Follows (P : MemoryStore → Prop) (p : Pass α) (d : MemoryStore → Decision β)
    (Q : α → β → MemoryStore → Prop) : Prop :=
  ∀ s, s.Serving fails → Sound key s.contents → P s.contents → FollowsAt key now fails s p d Q

variable {key now fails} {s : MemoryStore} {P : MemoryStore → Prop} {p : Pass α}
  {q : α → Pass γ} {d : MemoryStore → Decision β} {f : β → MemoryStore → Decision δ}
  {Q : α → β → MemoryStore → Prop} {R : γ → δ → MemoryStore → Prop}

/-- A program that has nothing to do. -/
theorem followsAt_pure (hs : s.Serving fails) {a : α} {b : β} (hd : d s.contents = .ok b)
    (hQ : Q a b s.contents) : FollowsAt key now fails s (pure a) d Q :=
  ⟨.refl hs, b, hd, hQ⟩

/-- A program that fails as was decided. -/
theorem followsAt_throw (hs : s.Serving fails) {e : BuildError}
    (hd : d s.contents = .error (.failed e)) : FollowsAt key now fails s (throw e : Pass α) d Q :=
  ⟨.refl hs, Or.inl hd⟩

/-- What goes on after writes. -/
theorem FollowsAt.after {t : MemoryStore} (h : FollowsAt key now fails t p d Q)
    (hadvanced : Advanced key fails d s t) :
    Finishes now fails p
      (fun a t => Advanced key fails d s t ∧ ∃ b, d t.contents = .ok b ∧ Q a b t.contents)
      (fun e t => Advanced key fails d s t ∧
        (d t.contents = .error (.failed e) ∨ fails ∧ ∃ e', e = .store e')) t :=
  Finishes.mono h (fun _ _ hend => ⟨hadvanced.trans hend.1, hend.2⟩)
    fun _ _ hend => ⟨hadvanced.trans hend.1, hend.2⟩

/-- A program that writes first, as was decided. -/
theorem followsAt_write (hs : s.Serving fails) {ω : Type} {call : StoreCall ω} {a : ω}
    {t : MemoryStore} (hcall : s.call call = (.ok a, t)) {q : ω → Pass γ}
    {d : MemoryStore → Decision δ} (hadvanced : Advanced key fails d s t)
    (h : FollowsAt key now fails t (q a) d R) :
    FollowsAt key now fails s (call.pass >>= q) d R := by
  refine (finishes_bind _ _).mpr (finishes_callPass call ?_ fun hfails e => ?_)
  · rw [hcall]
    exact h.after hadvanced
  · exact ⟨.refl hs, Or.inr ⟨hfails, e, rfl⟩⟩

/-- A program that reads first. -/
theorem followsAt_read (hs : s.Serving fails) {ω : Type} {call : StoreCall ω} {a : ω}
    (hanswer : s.answer call = (.ok a, s)) {q : ω → Pass γ} {d : MemoryStore → Decision δ}
    (h : FollowsAt key now fails s (q a) d R) :
    FollowsAt key now fails s (call.pass >>= q) d R := by
  refine followsAt_write hs ?_ (.refl hs) h
  rw [hs.call_eq, hanswer]

/-- A program that reads the time first. -/
theorem followsAt_now {q : Instant → Pass γ} {d : MemoryStore → Decision δ}
    (h : FollowsAt key now fails s (q now) d R) : FollowsAt key now fails s (Pass.now >>= q) d R :=
  finishes_now_bind h

/-- A program that starts with a function that has no effects, as the decision does. -/
theorem followsAt_monadLift (hs : s.Serving fails) {ω : Type} {r : Except BuildError ω}
    {q : ω → Pass γ} {d : MemoryStore → Decision δ} {g : ω → Decision δ}
    (hd : d s.contents = (Decision.of r >>= g))
    (h : ∀ a, r = .ok a → d s.contents = g a → FollowsAt key now fails s (q a) d R) :
    FollowsAt key now fails s ((MonadLift.monadLift r : Pass ω) >>= q) d R := by
  cases r with
  | ok a => exact h a rfl hd
  | error e => exact followsAt_throw hs hd

/-- The same program with another result. -/
theorem FollowsAt.map (h : FollowsAt key now fails s p d Q) {f : α → γ}
    {Q' : γ → β → MemoryStore → Prop} (hQ : ∀ a b v, Q a b v → Q' (f a) b v) :
    FollowsAt key now fails s (f <$> p) d Q' := by
  refine (finishes_map _ _).mpr (Finishes.mono h ?_ fun _ _ he => he)
  rintro a t ⟨hadvanced, b, hb, ha⟩
  exact ⟨hadvanced, b, hb, hQ a b _ ha⟩

/-- **Taking turns.**  A program starts with a part that follows a decision of its own, and while
that part has its turn, its decision is the one to be followed. -/
theorem FollowsAt.handover {I : MemoryStore → Prop} {d' : MemoryStore → Decision δ}
    (h : FollowsAt key now fails s p d Q) (hI : I s.contents)
    (hwrites : ∀ v w, I v → d v = .error (.writes w) →
      I (w.apply key v) ∧ d' v = .error (.writes w))
    (hfailed : ∀ v e, I v → d v = .error (.failed e) → d' v = .error (.failed e))
    (hq : ∀ a b t, Advanced key fails d' s t → Advanced key fails d s t → I t.contents →
      d t.contents = .ok b → Q a b t.contents → FollowsAt key now fails t (q a) d' R) :
    FollowsAt key now fails s (p >>= q) d' R := by
  -- while the part has its turn, what it writes is what the whole decides
  have hturn : ∀ {t}, Advanced key fails d s t → Advanced key fails d' s t ∧ I t.contents :=
    fun ht => ⟨ht.lift hI hwrites, ht.invariant hI fun v w hv hw => (hwrites v w hv hw).1⟩
  refine (finishes_bind _ _).mpr (Finishes.mono h ?_ ?_)
  · rintro a t ⟨ht, b, hb, ha⟩
    obtain ⟨hadvanced, hIt⟩ := hturn ht
    exact (hq a b t hadvanced ht hIt hb ha).after hadvanced
  · rintro e t ⟨ht, he⟩
    obtain ⟨hadvanced, hIt⟩ := hturn ht
    exact ⟨hadvanced, he.imp_left (hfailed _ e hIt)⟩

/-- **Composition.**  Where the first program has ended the second goes on, and what it writes
leaves nothing for the first to do. -/
theorem Follows.bind (hp : Follows key now fails P p d Q) (hd : Within key (KeepsSound key) d)
    (hq : ∀ a b, Follows key now fails (fun v => d v = .ok b ∧ Q a b v) (q a) (f b) R)
    (hkeeps : ∀ b v w, d v = .ok b → f b v = .error (.writes w) → d (w.apply key v) = .ok b) :
    Follows key now fails P (p >>= q) (fun v => d v >>= fun b => f b v) R := by
  intro s hs hsound hP
  -- the writes of the first program are decided by the sequence,
  have hfirst : ∀ {t}, Advanced key fails d s t →
      Advanced key fails (fun v => d v >>= fun b => f b v) s t := fun hadvanced =>
    hadvanced.lift (I := fun _ => True) trivial fun v w _ hw =>
      ⟨trivial, Decision.bind_error.mpr (Or.inl hw)⟩
  refine (finishes_bind _ _).mpr (Finishes.mono (hp s hs hsound hP) ?_ ?_)
  · rintro a t ⟨hadvanced, b, hb, ha⟩
    -- and so are those of the second, because they leave the first with nothing to do
    have hsecond : ∀ {u}, Advanced key fails (f b) t u →
        Advanced key fails (fun v => d v >>= fun b => f b v) t u ∧ d u.contents = .ok b := by
      intro u hu
      refine ⟨hu.lift hb fun v w hv hw => ⟨hkeeps b v w hv hw, ?_⟩,
        hu.invariant hb fun v w hv hw => hkeeps b v w hv hw⟩
      exact Decision.bind_error.mpr (Or.inr ⟨b, hv, hw⟩)
    refine Finishes.mono (hq a b t hadvanced.serving (hadvanced.sound hd hsound) ⟨hb, ha⟩) ?_ ?_
    · rintro c u ⟨hu, x, hx, hc⟩
      obtain ⟨hu, hbu⟩ := hsecond hu
      exact ⟨(hfirst hadvanced).trans hu, x, Decision.bind_ok.mpr ⟨b, hbu, hx⟩, hc⟩
    · rintro e u ⟨hu, he⟩
      obtain ⟨hu, hbu⟩ := hsecond hu
      refine ⟨(hfirst hadvanced).trans hu, he.imp_left fun he => ?_⟩
      exact Decision.bind_error.mpr (Or.inr ⟨b, hbu, he⟩)
  · rintro e t ⟨hadvanced, he⟩
    exact ⟨hfirst hadvanced, he.imp_left fun he => Decision.bind_error.mpr (Or.inl he)⟩

/-- **Recovery.**  What blocks the first program is handed to the second, and what that writes
leaves the first one blocked.  A call that failed is reported to the caller. -/
theorem Follows.recover {h : BuildError → Pass α} {f : BuildError → MemoryStore → Decision β}
    {g : MemoryStore → Decision β} (hp : Follows key now fails P p d Q)
    (hd : Within key (KeepsSound key) d)
    (hh : ∀ e, Follows key now fails (fun v => d v = .error (.failed e)) (h e) (f e) Q)
    (hcalls : ∀ e, h (.store e) = throw (.store e))
    (hgoes : ∀ v, (∀ e, d v ≠ .error (.failed e)) → g v = d v)
    (hblocked : ∀ v e, d v = .error (.failed e) → g v = f e v)
    (hkeeps : ∀ e v w, d v = .error (.failed e) → f e v = .error (.writes w) →
      d (w.apply key v) = .error (.failed e)) :
    Follows key now fails P (tryCatch p h) g Q := by
  intro s hs hsound hP
  have hfirst : ∀ {t}, Advanced key fails d s t → Advanced key fails g s t := fun ht =>
    ht.lift (I := fun _ => True) trivial fun v w _ hw =>
      ⟨trivial, (hgoes v fun e he => by cases he.symm.trans hw).trans hw⟩
  refine (finishes_tryCatch _ _).mpr (Finishes.mono (hp s hs hsound hP) ?_ ?_)
  · rintro a t ⟨ht, b, hb, ha⟩
    exact ⟨hfirst ht, b, (hgoes _ fun e he => by cases he.symm.trans hb).trans hb, ha⟩
  · rintro e t ⟨ht, he | ⟨hfails, e, rfl⟩⟩
    · -- the second program has its turn as long as the first one is blocked
      have hsecond : ∀ {u}, Advanced key fails (f e) t u →
          Advanced key fails g s u ∧ d u.contents = .error (.failed e) := by
        intro u hu
        refine ⟨(hfirst ht).trans (hu.lift he fun v w hv hw => ⟨hkeeps e v w hv hw, ?_⟩),
          hu.invariant he fun v w hv hw => hkeeps e v w hv hw⟩
        exact (hblocked v e hv).trans hw
      refine Finishes.mono (hh e t ht.serving (ht.sound hd hsound) he) ?_ ?_
      · rintro a u ⟨hu, b, hb, ha⟩
        obtain ⟨hadvanced, heu⟩ := hsecond hu
        exact ⟨hadvanced, b, (hblocked _ e heu).trans hb, ha⟩
      · rintro e' u ⟨hu, he'⟩
        obtain ⟨hadvanced, heu⟩ := hsecond hu
        exact ⟨hadvanced, he'.imp_left fun he' => (hblocked _ e heu).trans he'⟩
    · rw [hcalls]
      exact ⟨hfirst ht, Or.inr ⟨hfails, e, rfl⟩⟩

end

end PushBuild
