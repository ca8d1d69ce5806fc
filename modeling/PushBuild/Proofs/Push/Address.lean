import PushBuild.Proofs.Text.Trim
import PushBuild.Push.Event

/-!
# Which addresses name one repository

A repository's address is written in many ways: with blanks around it, with slashes at its end, with
`.git` or without.  Two addresses name one repository when the same is left of both once this is
taken off.

1. **Decoration.**  What may be around an address is data (`Decoration`), and an address is `Bare`
   if nothing of it could be taken for decoration.
2. **Steps.**  Dropping slashes from the end undoes that slashes were put there
   (`dropEndSlashes_eq_iff`).  No character of a decoration's end is blank, so trimming takes off
   exactly the blanks around it (`Decoration.trimBlanks_around`).
3. **Both directions.**  A decoration is taken off a bare address whole
   (`Bare.canonicalUrl_around`), and of any address nothing but a decoration is taken off
   (`exists_decoration`).
4. **The result** (`addresses_identified`).
-/

namespace PushBuild

open Text

/-! ## Decoration -/

/-- What may be around an address: blanks on both sides, and at its end slashes, `.git` or not, and
slashes. -/
structure Decoration where
  front : String := ""
  slashes : Nat := 0
  marked : Bool := false
  moreSlashes : Nat := 0
  back : String := ""
  front_blank : isAllBlank front = true := by rfl
  back_blank : isAllBlank back = true := by rfl

namespace Decoration

/-- The mark of a bare repository, if the decoration has it. -/
def mark (d : Decoration) : List Char := if d.marked then dotGit else []

/-- What stands at the end of the address. -/
def tail (d : Decoration) : List Char :=
  List.replicate d.slashes '/' ++ d.mark ++ List.replicate d.moreSlashes '/'

/-- An address with the decoration around it. -/
def around (d : Decoration) (bare : String) : String :=
  d.front ++ (bare ++ String.ofList d.tail) ++ d.back

/-- The characters of a decorated address. -/
theorem toList_around (d : Decoration) (bare : String) :
    (d.around bare).toList = d.front.toList ++ (bare.toList ++ d.tail) ++ d.back.toList := by
  simp only [around, String.toList_append, String.toList_ofList]

end Decoration

/-- An address of which nothing can be taken for decoration: it has no blank at either end, and ends
neither in a slash nor in `.git`. -/
structure Bare (address : String) : Prop where
  neat : Neat address.toList
  slash : address.toList.getLast? ≠ some '/'
  mark : ¬ dotGit <:+ address.toList

instance {address : String} : Decidable (Bare address) :=
  decidable_of_iff (Neat address.toList ∧ address.toList.getLast? ≠ some '/' ∧
    ¬ dotGit <:+ address.toList)
    ⟨fun ⟨hneat, hslash, hmark⟩ => ⟨hneat, hslash, hmark⟩, fun h => ⟨h.neat, h.slash, h.mark⟩⟩

/-! ## Steps -/

/-- Slashes are dropped from the end, all of them and nothing else. -/
theorem dropEndSlashes_eq_iff {cs kept : List Char} : dropEndSlashes cs = kept ↔
    ∃ n, cs = kept ++ List.replicate n '/' ∧ kept.getLast? ≠ some '/' := by
  rw [dropEndSlashes, dropEndWhile_eq_iff]
  constructor
  · rintro ⟨dropped, rfl, hdropped, hlast⟩
    have hslashes : dropped = List.replicate dropped.length '/' :=
      List.eq_replicate_iff.mpr ⟨rfl, fun c hc => eq_of_beq (hdropped c hc)⟩
    exact ⟨dropped.length, by rw [← hslashes], fun h => absurd (hlast '/' h) (by decide)⟩
  · rintro ⟨n, rfl, hlast⟩
    refine ⟨_, rfl, fun c hc => beq_iff_eq.mpr (List.eq_of_mem_replicate hc), fun c hc => ?_⟩
    exact beq_eq_false_iff_ne.mpr fun heq => hlast (heq ▸ hc)

/-- The end of a decoration has slashes and the characters of the mark only, -/
theorem Decoration.mem_tail {d : Decoration} {c : Char} (h : c ∈ d.tail) :
    c = '/' ∨ c ∈ dotGit := by
  unfold tail mark at h
  rcases List.mem_append.mp h with h | h
  · rcases List.mem_append.mp h with h | h
    · exact Or.inl (List.eq_of_mem_replicate h)
    · split at h
      · exact Or.inr h
      · cases h
  · exact Or.inl (List.eq_of_mem_replicate h)

/-- so it has no blanks. -/
theorem Decoration.isBlank_of_mem_tail {d : Decoration} {c : Char} (h : c ∈ d.tail) :
    isBlank c = false := by
  rcases d.mem_tail h with rfl | h
  · rfl
  · have hmark : ∀ c ∈ dotGit, isBlank c = false := by simp [dotGit, isBlank]
    exact hmark c h

/-- Without the blanks around it, the address with its end is neat. -/
theorem Decoration.neat_tail (d : Decoration) {bare : List Char} (h : Neat bare) :
    Neat (bare ++ d.tail) := by
  by_cases htail : d.tail = []
  · rw [htail, List.append_nil]
    exact h
  · exact .append h.head ⟨fun _ hc => d.isBlank_of_mem_tail (List.mem_of_mem_head? hc),
      fun _ hc => d.isBlank_of_mem_tail (List.mem_of_mem_getLast? hc)⟩ htail

/-- The blanks around an address are taken off. -/
theorem Decoration.trimBlanks_around (d : Decoration) {bare : String} (h : Neat bare.toList) :
    trimBlanks (d.around bare).toList = bare.toList ++ d.tail :=
  trimBlanks_eq_iff.mpr ⟨_, _, d.toList_around bare, List.all_eq_true.mp d.front_blank,
    List.all_eq_true.mp d.back_blank, d.neat_tail h⟩

/-! ## Both directions -/

/-- **No missed match.**  A decoration is taken off a bare address whole. -/
theorem Bare.canonicalUrl_around {bare : String} (h : Bare bare) (d : Decoration) :
    canonicalUrl (d.around bare) = bare := by
  have hslashes : ∀ n, dropEndSlashes (bare.toList ++ List.replicate n '/') = bare.toList :=
    fun n =>
    dropEndSlashes_eq_iff.mpr ⟨n, rfl, h.slash⟩
  rw [canonicalUrl, d.trimBlanks_around h.neat, ← String.toList_inj, String.toList_ofList]
  cases hmarked : d.marked with
  | true =>
    -- the slashes after the mark go first, then the mark, then the slashes before it
    have hfirst : dropEndSlashes (bare.toList ++ d.tail) =
        bare.toList ++ List.replicate d.slashes '/' ++ dotGit := by
      refine dropEndSlashes_eq_iff.mpr ⟨d.moreSlashes, ?_, ?_⟩
      · simp only [Decoration.tail, Decoration.mark, hmarked, if_true, List.append_assoc]
      · rw [List.getLast?_append, show dotGit.getLast? = some 't' from rfl, Option.some_or]
        decide
    simp only [hfirst, dropSuffix?_eq_some_iff.mpr rfl, Option.getD_some, hslashes]
  | false =>
    have hfirst : dropEndSlashes (bare.toList ++ d.tail) = bare.toList := by
      simp only [Decoration.tail, Decoration.mark, hmarked, Bool.false_eq_true, if_false,
        List.append_nil, List.replicate_append_replicate, hslashes]
    have hmark : dropSuffix? dotGit bare.toList = none := by
      by_contra hsome
      obtain ⟨kept, hkept⟩ := Option.ne_none_iff_exists'.mp hsome
      exact h.mark ⟨kept, (dropSuffix?_eq_some_iff.mp hkept).symm⟩
    have hlast := hslashes 0
    rw [List.replicate_zero, List.append_nil] at hlast
    simp only [hfirst, hmark, Option.getD_none, hlast]

/-- The mark is dropped or there is none. -/
theorem exists_mark (cs : List Char) :
    ∃ marked : Bool, cs = (dropSuffix? dotGit cs).getD cs ++ if marked then dotGit else [] := by
  cases h : dropSuffix? dotGit cs with
  | none => exact ⟨false, (List.append_nil cs).symm⟩
  | some kept => exact ⟨true, dropSuffix?_eq_some_iff.mp h⟩

/-- **No false match.**  Of an address nothing but a decoration is taken off, and all slashes at its
end are. -/
theorem exists_decoration (url : String) :
    (canonicalUrl url).toList.getLast? ≠ some '/' ∧
      ∃ d : Decoration, d.around (canonicalUrl url) = url := by
  obtain ⟨front, back, hurl, hfront, hback, -⟩ :=
    trimBlanks_eq_iff.mp (Eq.refl (trimBlanks url.toList))
  obtain ⟨n, htrimmed, -⟩ :=
    dropEndSlashes_eq_iff.mp (Eq.refl (dropEndSlashes (trimBlanks url.toList)))
  obtain ⟨marked, hmarked⟩ := exists_mark (dropEndSlashes (trimBlanks url.toList))
  have hcanonical : (canonicalUrl url).toList = dropEndSlashes _ := String.toList_ofList
  obtain ⟨m, hkept, hlast⟩ := dropEndSlashes_eq_iff.mp hcanonical.symm
  -- the decoration is put together from what each step took off
  refine ⟨hlast, ⟨String.ofList front, m, marked, n, String.ofList back, ?_, ?_⟩, ?_⟩
  · simpa only [isAllBlank, String.toList_ofList, List.all_eq_true] using hfront
  · simpa only [isAllBlank, String.toList_ofList, List.all_eq_true] using hback
  · rw [← String.toList_inj, Decoration.toList_around]
    conv_rhs => rw [hurl, htrimmed, hmarked, hkept]
    simp only [Decoration.tail, Decoration.mark, String.toList_ofList, List.append_assoc]

/-! ## The result -/

/-- **Which addresses name one repository.**  Whatever decoration a bare address has, the address is
what is left of it.  Of every address nothing but a decoration is taken off, and what is left never
ends in a slash.  So a push concerns a ref of a repository only if it went to this ref, and to an
address that differs from the repository's in decoration alone; and it does if it went to this ref
and both addresses decorate the same bare one. -/
theorem addresses_identified :
    (∀ (d : Decoration) (bare : String), Bare bare → canonicalUrl (d.around bare) = bare) ∧
    (∀ url, (canonicalUrl url).toList.getLast? ≠ some '/' ∧
      ∃ d : Decoration, d.around (canonicalUrl url) = url) ∧
    (∀ (event : PushEvent) (url ref : String), event.concerns url ref = true →
      event.ref = ref ∧ ∃ (common : String) (d d' : Decoration), common.toList.getLast? ≠ some '/' ∧
        event.url = d.around common ∧ url = d'.around common) ∧
    ∀ (event : PushEvent) (bare : String) (d d' : Decoration), Bare bare →
      event.url = d.around bare →
      event.concerns (d'.around bare) event.ref = true := by
  refine ⟨fun d _ h => h.canonicalUrl_around d, exists_decoration, ?_, ?_⟩
  · -- what is left of both addresses is the same
    intro event url ref h
    obtain ⟨href, hsame⟩ := Bool.and_eq_true_iff.mp h
    obtain ⟨hlast, d, hd⟩ := exists_decoration event.url
    obtain ⟨-, d', hd'⟩ := exists_decoration url
    rw [← eq_of_beq hsame] at hd'
    exact ⟨eq_of_beq href, canonicalUrl event.url, d, d', hlast, hd.symm, hd'.symm⟩
  · intro event bare d d' h hurl
    rw [PushEvent.concerns, hurl, h.canonicalUrl_around d, h.canonicalUrl_around d',
      beq_self_eq_true, beq_self_eq_true]
    rfl

/-- The address that a sender gives has a tab before it, a mark, a slash and a blank after it; that
of the request has two slashes. -/
theorem addresses_identified_marked : Bare "https://host/org/repo" ∧
    (PushEvent.mk "\thttps://host/org/repo.git/ " "refs/heads/main" "c").concerns
      "https://host/org/repo//"
      "refs/heads/main" = true := by
  have hbare : Bare "https://host/org/repo" := by decide
  have hsent : "\thttps://host/org/repo.git/ " =
      Decoration.around { front := "\t", marked := true, moreSlashes := 1, back := " " }
        "https://host/org/repo" := by
    decide
  have hrequested : Decoration.around { slashes := 2 } "https://host/org/repo" =
      "https://host/org/repo//" := by
    decide
  obtain ⟨-, -, -, hconcerns⟩ := addresses_identified
  exact ⟨hbare, hrequested ▸ hconcerns (PushEvent.mk _ _ "c") _ _ { slashes := 2 } hbare hsent⟩

end PushBuild
