import PushBuild.Time.Instant

/-!
# Instants in order, and off leap seconds

1. **Lengths.**  A number of seconds is a span that is as long, or the longest one
   (`Window.millis_ofSeconds`).
2. **Order.**  Instants are ordered by their seconds, and within one by their nanoseconds.  In a
   leap second these go on beyond a thousand million, so the order is that of the clock there too.
3. **Plain instants.**  An instant that is not in a leap second is a number of nanoseconds
   (`Instant.total`), and among such instants differences and sums are those of the numbers.  With
   leap seconds they are not: a deadline that starts in a leap second may end before the next second
   does.  What a clock that shows a plain instant takes to be over is over
   (`Instant.le_of_remaining?_eq_none`).
4. **Ends of windows.**  A window that opens at a plain instant closes when the sum of the numbers
   says, and with the last of all instants if the sum is beyond it (`Instant.deadline_ofSeconds`).
   That windows are no longer than a span can be makes no difference, for the longest one reaches
   beyond all instants from any of them.
-/

namespace PushBuild

/-! ## Lengths of time -/

/-- It is a number of seconds that 64 bits hold, and a fraction of a second. -/
def Duration.Fits (d : Duration) : Prop := d.seconds < 18446744073709551616

/-- A window of so many seconds is as long, unless that is more than a span can be. -/
theorem Window.millis_ofSeconds (n : Nat) :
    (Window.ofSeconds n).millis = min ((n : Int) * 1000) Window.longest.millis := by
  unfold Window.ofSeconds
  split
  · dsimp only
    omega
  · omega

namespace Instant

/-! ## Order -/

instance : LE Instant where
  le a b := a.seconds < b.seconds ∨ (a.seconds = b.seconds ∧ a.nanos ≤ b.nanos)

variable {a b c : Instant}

/-- The order, in seconds and nanoseconds. -/
theorem le_def : a ≤ b ↔ a.seconds < b.seconds ∨ (a.seconds = b.seconds ∧ a.nanos ≤ b.nanos) :=
  Iff.rfl

instance (a b : Instant) : Decidable (a ≤ b) :=
  inferInstanceAs (Decidable (a.seconds < b.seconds ∨ (a.seconds = b.seconds ∧ a.nanos ≤ b.nanos)))

protected theorem le_refl (a : Instant) : a ≤ a := Or.inr ⟨rfl, Nat.le_refl _⟩

protected theorem le_trans (h : a ≤ b) (h' : b ≤ c) : a ≤ c := by
  rw [le_def] at *
  omega

/-! ## Plain instants -/

/-- The instant is not in a leap second. -/
def IsPlain (t : Instant) : Prop := t.nanos < 1000000000

instance (t : Instant) : Decidable t.IsPlain := inferInstanceAs (Decidable (_ < _))

/-- The nanoseconds since the start of 1970, not counting leap seconds. -/
def total (t : Instant) : Int := t.seconds * 1000000000 + t.nanos

/-- The numbers of instants are ordered as the instants are, if the earlier one is plain. -/
theorem total_le (ha : a.IsPlain) (h : a ≤ b) : a.total ≤ b.total := by
  unfold IsPlain at ha
  unfold total
  rw [le_def] at h
  omega

/-- Between plain instants the difference is that of the numbers. -/
theorem since_eq (ha : a.IsPlain) (hb : b.IsPlain) : b.since a = b.total - a.total := by
  unfold IsPlain at ha hb
  unfold since total
  have hextra : ¬ (a.secondOfDay < b.secondOfDay ∧ 1000000000 ≤ a.nanos) := fun h => by omega
  have hextra' : ¬ (b.secondOfDay < a.secondOfDay ∧ 1000000000 ≤ b.nanos) := fun h => by omega
  simp only [if_neg hextra, if_neg hextra']
  omega

/-- An instant that is made of parts has these parts. -/
theorem ofParts?_eq {seconds : Int} {nanos : Nat} {t : Instant}
    (h : ofParts? seconds nanos = some t) :
    t.seconds = seconds ∧ t.nanos = nanos := by
  unfold ofParts? at h
  split at h
  · obtain rfl := Option.some.inj h
    exact ⟨rfl, rfl⟩
  · cases h

/-- A plain instant that is moved is plain, and moved by as many nanoseconds. -/
theorem plus?_eq {w : Window} (ha : a.IsPlain) (h : a.plus? w = some b) :
    b.IsPlain ∧ b.total = a.total + w.millis * 1000000 := by
  unfold IsPlain at ha
  have hleap : ¬ 1000000000 ≤ a.nanos := by omega
  have hmillis : w.millis = 1000 * w.millis.tdiv 1000 + w.millis.tmod 1000 :=
    (Int.mul_tdiv_add_tmod w.millis 1000).symm
  unfold plus? at h
  dsimp only at h
  rw [if_neg (fun h => hleap h.1), if_neg hleap] at h
  obtain ⟨hseconds, hnanos⟩ := ofParts?_eq h
  unfold IsPlain total
  omega

/-- What is still to come at a plain instant, and how long it is until then. -/
theorem remaining?_eq_some (ha : a.IsPlain) (hb : b.IsPlain) {wait : Duration} :
    b.remaining? a = some wait ↔ a.total < b.total ∧
      (wait.nanoseconds : Int) = b.total - a.total := by
  obtain ⟨n⟩ := wait
  unfold remaining?
  rw [since_eq ha hb]
  split
  · rw [Option.some.injEq, Duration.mk.injEq]
    dsimp only
    omega
  · simp only [reduceCtorEq, false_iff]
    omega

/-- Nothing is still to come exactly of what is no later. -/
theorem remaining?_eq_none (ha : a.IsPlain) (hb : b.IsPlain) :
    b.remaining? a = none ↔ b.total ≤ a.total := by
  unfold remaining?
  rw [since_eq ha hb]
  split
  · simp only [reduceCtorEq, false_iff]
    omega
  · simp only [true_iff]
    omega

/-- What is not still to come at a plain instant is over then. -/
theorem le_of_remaining?_eq_none (ha : a.IsPlain) (h : b.remaining? a = none) : b ≤ a := by
  have hsince : b.since a ≤ 0 := by
    unfold remaining? at h
    split at h
    · cases h
    · omega
  unfold IsPlain at ha
  unfold since secondOfDay at hsince
  rw [le_def]
  -- only `b` may lie in a leap second, and then it counts if the clock time of `a` lies beyond it
  have hplain : ¬ (a.seconds % 86400 < b.seconds % 86400 ∧ 1000000000 ≤ a.nanos) := by omega
  rw [if_neg hplain] at hsince
  dsimp only at hsince
  split at hsince <;> omega

/-! ## Ends of windows -/

/-- The last of all instants is not in a leap second. -/
theorem latest_isPlain : latest.IsPlain := by decide

/-- No plain instant has a greater number than the last one. -/
theorem total_le_latest (ha : a.IsPlain) : a.total ≤ latest.total := by
  have hlatest := a.le_latest
  unfold IsPlain at ha
  unfold total latest
  dsimp only
  omega

/-- No instant has a smaller number than the first one. -/
theorem earliest_le_total (a : Instant) : -8334601228800000000000 ≤ a.total := by
  have hearliest := a.earliest_le
  unfold total
  omega

/-- Parts of an instant make one. -/
theorem exists_ofParts?_eq {seconds : Int} {nanos : Nat} (hplain : nanos < 1000000000)
    (hearliest : -8334601228800 ≤ seconds) (hlatest : seconds ≤ 8210266876799) :
    ∃ t, ofParts? seconds nanos = some t := by
  unfold ofParts?
  rw [dif_pos ⟨by omega, by omega, hearliest, hlatest⟩]
  exact ⟨_, rfl⟩

/-- A plain instant can be moved on, unless that leads beyond the last of all instants. -/
theorem exists_plus?_eq {w : Window} (ha : a.IsPlain) (hw : 0 ≤ w.millis)
    (hsum : a.total + w.millis * 1000000 ≤ latest.total) : ∃ b, a.plus? w = some b := by
  have hearliest := a.earliest_le
  unfold IsPlain at ha
  have hleap : ¬ 1000000000 ≤ a.nanos := by omega
  -- the window is moved by whole seconds and by the milliseconds that are left, and neither of the
  -- two is negative
  have hmillis : w.millis = 1000 * w.millis.tdiv 1000 + w.millis.tmod 1000 :=
    (Int.mul_tdiv_add_tmod w.millis 1000).symm
  have hrest : 0 ≤ w.millis.tmod 1000 := Int.tmod_nonneg _ hw
  have hwhole : 0 ≤ w.millis.tdiv 1000 := Int.tdiv_nonneg hw (by decide)
  unfold total latest at hsum
  dsimp only at hsum
  unfold plus?
  dsimp only
  rw [if_neg (fun h => hleap h.1), if_neg hleap]
  exact exists_ofParts?_eq (by omega) (by omega) (by omega)

/-- When a window of so many seconds closes, in nanoseconds: the sum, if it is no later than all
instants are. -/
def closing (start : Instant) (seconds : Nat) : Int :=
  min (start.total + seconds * 1000000000) latest.total

/-- **A window closes when the sum says**, however long it is. -/
theorem deadline_ofSeconds (ha : a.IsPlain) (n : Nat) :
    (a.deadline (.ofSeconds n)).IsPlain ∧ (a.deadline (.ofSeconds n)).total = a.closing n := by
  have hmillis := Window.millis_ofSeconds n
  have hlongest : Window.longest.millis = 9223372036854775807 := rfl
  have hlatest : latest.total = 8210266876799999999999 := rfl
  have hearliest := a.earliest_le_total
  unfold deadline closing
  cases hsum : a.plus? (.ofSeconds n) with
  | some b =>
    obtain ⟨hplain, htotal⟩ := plus?_eq ha hsum
    have hle := total_le_latest hplain
    refine ⟨hplain, ?_⟩
    show b.total = _
    omega
  | none =>
    refine ⟨latest_isPlain, ?_⟩
    show latest.total = _
    refine (Int.min_eq_right ?_).symm
    -- were the sum within the range of instants, the window would have an end
    refine Int.not_lt.mp fun hlt => ?_
    obtain ⟨b, hb⟩ := exists_plus?_eq (w := .ofSeconds n) ha (by omega) (by omega)
    rw [hsum] at hb
    cases hb

end Instant

end PushBuild
