import PushBuild.Image
import PushBuild.Proofs.Text.Trim

/-!
# References that stay as they are

A reference that was resolved is resolved again, on the next pass or with the digest of a later
build.

1. **Pinned references.**  A reference names a tag or a digest (`Image.Pinned`) exactly if it has an
   at sign, or a colon after its last slash, so the port of a registry is no tag.
2. **What is resolved.**  There are two cases, and one description of the result for each: a digest
   that is not blank (`resolveImage_some_iff`) and no such digest (`resolveImage_blank_iff`).
   Nothing else is used of how references are resolved.
3. **What a result keeps** (`Image.Pins`).  It is neat and pinned, and has the repository of the
   reference it was made from.  These three facts are all that resolving it again asks for, with a
   digest or without.
4. **The result** (`resolved_image_stable`).
-/

namespace PushBuild

open Text

namespace Image

/-- The repository of an image reference. -/
def repository (image : String) : List Char := before '@' (trimBlanks image.toList)

/-! ## Pinned references -/

/-- The reference names a tag or a digest: it has an at sign, or a colon that no slash follows. -/
def Pinned (image : List Char) : Prop :=
  '@' ∈ image ∨ ∃ front tag, image = front ++ ':' :: tag ∧ '/' ∉ tag

/-- This is what the program looks for. -/
theorem isPinned_iff {image : List Char} : isPinned image = true ↔ Pinned image := by
  rw [isPinned, Bool.or_eq_true, List.contains_iff_mem, List.contains_iff_mem,
    mem_afterLast_iff (by decide), Pinned]

/-- An empty reference names neither. -/
theorem not_pinned_nil : ¬ Pinned [] := by
  rintro (h | ⟨front, tag, h, -⟩)
  · cases h
  · exact absurd h.symm (List.append_ne_nil_of_right_ne_nil _ (List.cons_ne_nil _ _))

end Image

open Image

/-! ## What is resolved -/

section

variable {image r : String}

/-- A digest that is not blank pins the repository of every reference that is not blank.  What the
reference had after its first at sign is dropped, and what it had before is kept as it is. -/
theorem resolveImage_some_iff {d : String} (hd : isAllBlank d = false) :
    resolveImage image (some d) = some r ↔
      isAllBlank image = false ∧ r.toList = repository image ++ '@' :: trimBlanks d.toList := by
  have hdigest : ((some d).map fun d => trimBlanks d.toList).filter (!·.isEmpty) =
      some (trimBlanks d.toList) := by
    have hne : trimBlanks d.toList ≠ [] := fun h => by simp [isAllBlank_iff.mpr h] at hd
    simpa using hne
  unfold resolveImage repository
  split
  · next htrimmed => simp [isAllBlank_iff.mpr htrimmed]
  · next htrimmed =>
    have himage : isAllBlank image = false := Bool.eq_false_iff.mpr fun h =>
      htrimmed (isAllBlank_iff.mp h)
    rw [hdigest, Option.some.injEq, ← String.toList_inj, String.toList_ofList, eq_comm]
    simp only [himage, true_and]

/-- Without a digest a reference is used as it is, if it is pinned. -/
theorem resolveImage_blank_iff {digest : Option String} (h : ∀ d ∈ digest, isAllBlank d = true) :
    resolveImage image digest = some r ↔ Pinned (trimBlanks image.toList) ∧ r = trim image := by
  have hdigest : (digest.map fun d => trimBlanks d.toList).filter (!·.isEmpty) = none := by
    cases digest with
    | none => rfl
    | some d => simp [isAllBlank_iff.mp (h d rfl)]
  unfold resolveImage
  split
  · next htrimmed => simp [htrimmed, not_pinned_nil]
  · rw [hdigest, ← isPinned_iff, trim, eq_comm (a := r)]
    simp only [Option.ite_none_right_eq_some, Option.some.injEq]

end

/-! ## What a result keeps -/

/-- The reference is neat and pinned, and has the repository of `image`, which is not blank. -/
structure Image.Pins (r image : String) : Prop where
  neat : Neat r.toList
  pinned : Pinned r.toList
  repository_eq : repository r = repository image
  nonblank : isAllBlank image = false

section

variable {image r : String}

/-- A reference that names something is not blank, -/
theorem Image.Pinned.nonblank (h : Pinned (trimBlanks image.toList)) : isAllBlank image = false :=
  Bool.eq_false_iff.mpr fun hblank => not_pinned_nil (isAllBlank_iff.mp hblank ▸ h)

/-- A repository begins as its reference does, with no blank. -/
theorem Image.head_repository : ∀ c ∈ (repository image).head?, isBlank c = false := by
  obtain ⟨-, hall | ⟨after, hafter⟩⟩ := before_eq_iff.mp (Eq.refl (repository image))
  · exact hall ▸ (neat_trimBlanks image.toList).head
  · intro c hc
    refine (neat_trimBlanks image.toList).head c ?_
    rw [hafter, List.head?_append, Option.mem_def.mp hc]
    rfl

/-- **What a result keeps** of the reference it was made from.  This is the crux: all three facts
are needed for a result to be resolved again, and each holds for a different reason in the two
cases. -/
theorem pins_of_resolveImage {digest : Option String} (h : resolveImage image digest = some r) :
    Pins r image := by
  by_cases hblank : ∀ d ∈ digest, isAllBlank d = true
  · -- no digest: the result is the reference without the blanks around it
    obtain ⟨hpinned, rfl⟩ := (resolveImage_blank_iff hblank).mp h
    have htrim : (trim image).toList = trimBlanks image.toList := String.toList_ofList
    have hneat : Neat (trim image).toList := htrim ▸ neat_trimBlanks image.toList
    refine ⟨hneat, htrim ▸ hpinned, ?_, hpinned.nonblank⟩
    rw [repository, hneat.trimBlanks_eq, htrim, repository]
  · -- a digest: the result starts with the repository and ends with the digest, and neither end is
    -- a blank
    obtain ⟨d, rfl, hd⟩ : ∃ d, digest = some d ∧ isAllBlank d = false := by simpa using hblank
    obtain ⟨hnonblank, hr⟩ := (resolveImage_some_iff hd).mp h
    have hdigest : trimBlanks d.toList ≠ [] := fun h => by simp [isAllBlank_iff.mpr h] at hd
    have hneat : Neat r.toList := by
      rw [hr, List.append_cons]
      refine .append (fun c hc => ?_) (neat_trimBlanks d.toList) hdigest
      rw [List.head?_append] at hc
      rcases Option.or_eq_some_iff.mp hc with hc | ⟨-, hc⟩
      · exact head_repository c hc
      · obtain rfl := Option.some.inj hc
        rfl
    refine ⟨hneat, Or.inl (by simp [hr]), ?_, hnonblank⟩
    rw [repository, hneat.trimBlanks_eq]
    exact before_eq_iff.mpr ⟨not_mem_before _ _, Or.inr ⟨_, hr⟩⟩

/-- and so a result is not. -/
theorem Image.Pins.nonblank_self (h : Pins r image) : isAllBlank r = false :=
  Image.Pinned.nonblank (h.neat.trimBlanks_eq.symm ▸ h.pinned)

/-- A result is resolved to itself. -/
theorem Image.Pins.resolveImage_none (h : Pins r image) : resolveImage r none = some r := by
  refine (resolveImage_blank_iff fun _ hd => absurd hd (Option.not_mem_none _)).mpr ?_
  rw [trim, h.neat.trimBlanks_eq, String.ofList_toList]
  exact ⟨h.pinned, rfl⟩

/-- A result is pinned again like the reference it was made from. -/
theorem Image.Pins.resolveImage_some (h : Pins r image) {d : String} (hd : isAllBlank d = false) :
    resolveImage r (some d) = resolveImage image (some d) := by
  ext s
  rw [resolveImage_some_iff hd, resolveImage_some_iff hd, h.repository_eq, h.nonblank,
    h.nonblank_self]

end

/-! ## The result -/

/-- **References stay as they are.**  A result has no blank at either end and is resolved to itself;
a digest pins it as it would pin the reference that it was made from, and before its first at sign
it has what that reference has there, the port and the tag included.  With a digest that is not
blank there is a result exactly for references that are not blank, and after its first at sign
stands the digest.  Without one there is a result exactly for references that are pinned, and it is
the reference. -/
theorem resolved_image_stable (image : String) (digest : Option String) :
    (∀ r, resolveImage image digest = some r →
      Neat r.toList ∧ resolveImage r none = some r ∧
      (∀ d, isAllBlank d = false → resolveImage r (some d) = resolveImage image (some d)) ∧
      before '@' r.toList = before '@' (trim image).toList) ∧
    (∀ d, digest = some d → isAllBlank d = false →
      ((∃ r, resolveImage image digest = some r) ↔ isAllBlank image = false) ∧
      ∀ r, resolveImage image digest = some r →
        ∃ front, '@' ∉ front ∧ r.toList = front ++ '@' :: (trim d).toList) ∧
    ((∀ d ∈ digest, isAllBlank d = true) →
      ((∃ r, resolveImage image digest = some r) ↔ Pinned (trim image).toList) ∧
      ∀ r, resolveImage image digest = some r → r = trim image) := by
  have htrim : ∀ s, (trim s).toList = trimBlanks s.toList := fun _ => String.toList_ofList
  refine ⟨?_, ?_, ?_⟩
  · -- whatever the digest, a result pins the reference
    intro r h
    have hpins := pins_of_resolveImage h
    have hbefore := hpins.repository_eq
    rw [repository, repository, hpins.neat.trimBlanks_eq, ← htrim] at hbefore
    exact ⟨hpins.neat, hpins.resolveImage_none, fun _ => hpins.resolveImage_some, hbefore⟩
  · -- with a digest
    rintro d rfl hd
    refine ⟨⟨?_, ?_⟩, ?_⟩
    · rintro ⟨r, h⟩
      exact (pins_of_resolveImage h).nonblank
    · intro himage
      exact ⟨String.ofList _, (resolveImage_some_iff hd).mpr ⟨himage, String.toList_ofList⟩⟩
    · intro r h
      rw [htrim]
      exact ⟨repository image, not_mem_before _ _, ((resolveImage_some_iff hd).mp h).2⟩
  · -- without one
    intro hblank
    refine ⟨⟨?_, ?_⟩, ?_⟩
    · rintro ⟨r, h⟩
      rw [htrim]
      exact ((resolveImage_blank_iff hblank).mp h).1
    · intro hpinned
      rw [htrim] at hpinned
      exact ⟨trim image, (resolveImage_blank_iff hblank).mpr ⟨hpinned, rfl⟩⟩
    · intro r h
      exact ((resolveImage_blank_iff hblank).mp h).2

/-- A reference with a port, a tag and a digest, and blanks around it, is pinned by the digest of a
build, and the result by that of the next build. -/
theorem resolved_image_stable_repinned :
    resolveImage " localhost:5000/app:v1@sha256:0 " (some " sha256:1\n") =
      some "localhost:5000/app:v1@sha256:1" ∧
    isAllBlank "sha256:2" = false ∧
    resolveImage "localhost:5000/app:v1@sha256:1" none = some "localhost:5000/app:v1@sha256:1" ∧
    resolveImage "localhost:5000/app:v1@sha256:1" (some "sha256:2") =
      resolveImage " localhost:5000/app:v1@sha256:0 " (some "sha256:2") := by
  have hresolved : resolveImage " localhost:5000/app:v1@sha256:0 " (some " sha256:1\n") =
      some "localhost:5000/app:v1@sha256:1" := by decide
  have hdigest : isAllBlank "sha256:2" = false := by decide
  obtain ⟨-, hself, hrepinned, -⟩ := (resolved_image_stable _ _).1 _ hresolved
  exact ⟨hresolved, hdigest, hself, hrepinned "sha256:2" hdigest⟩

end PushBuild
