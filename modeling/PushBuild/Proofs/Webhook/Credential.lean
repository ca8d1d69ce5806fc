import PushBuild.Proofs.Text.Digits
import PushBuild.Proofs.Webhook.Headers
import PushBuild.Webhook.Provider

/-!
# What a credential has to be

A delivery is authentic if one header of it has the one value that takes the secret to make.  For
GitHub that is a signature of the body, and for GitLab the secret itself.

1. **Signatures.**  Text is a signature of bytes exactly if it is the start and the digits of the
   bytes, in letters of either case (`signatureBytes?_eq_some_iff`).  So all signatures of a body
   are equally long.
2. **What each provider asks** of the first value under its header (`authenticates_github_iff`,
   `authenticates_gitlab_iff`).  A token is compared by its code, so what is asked of it is the
   secret only if the codes of the two do not collide (`Hmac.Separates`).
3. **The result** (`credentials_exact`).
-/

namespace PushBuild

open Text

/-- The codes of two messages under a key do not collide. -/
def Hmac.Separates (key message other : Bytes) : Prop :=
  code key message = code key other → message = other

namespace Provider

/-! ## Signatures -/

/-- **Signatures** are the start and the digits, in letters of either case. -/
theorem signatureBytes?_eq_some_iff {signature : List Char} {bytes : Bytes} :
    signatureBytes? signature = some bytes ↔
      ∃ digits, signature = signatureStart ++ digits ∧
        digits.map Char.toLower = hexOfBytes bytes := by
  simp only [signatureBytes?, Option.bind_eq_some_iff, List.isPrefixOf?_eq_some_iff_append_eq,
    bytesOfHex?_eq_some_iff, eq_comm (a := signature)]

/-- A signature is read back. -/
theorem signatureBytes?_sign (secret body : Bytes) :
    signatureBytes? (sign secret body).toList = some (Hmac.code secret body) := by
  rw [sign, String.toList_ofList]
  exact bytesOfHex?_hexOfBytes _

/-- The value of a header is `sha256=` and the hexadecimal digits of some bytes, in letters of
either case. -/
def SignsBytes (value bytes : Bytes) : Prop :=
  ∃ digits : String, value = utf8 ("sha256=" ++ digits) ∧
    digits.toList.map Char.toLower = hexOfBytes bytes

/-- The start of a signature is the one that the program looks for. -/
theorem signature_eq_ofList (digits : String) :
    "sha256=" ++ digits = String.ofList (signatureStart ++ digits.toList) := by
  rw [String.ofList_append, String.ofList_toList]
  rfl

/-- It may stand in a header. -/
theorem printable_signatureStart :
    ∀ c ∈ signatureStart, 32 ≤ c.toNat ∧ c.toNat < 127 := by simp [signatureStart]

/-- Digits in either case are characters of ASCII. -/
theorem toNat_lt_of_digits {digits : List Char} {bytes : Bytes}
    (h : digits.map Char.toLower = hexOfBytes bytes) :
    ∀ c ∈ digits, c.toNat < 128 := by
  intro c hc
  have hmem : c.toLower ∈ hexOfBytes bytes := h ▸ List.mem_map_of_mem hc
  have hlt := (printable_of_mem_hexOfBytes hmem).2
  exact toNat_lt_of_toLower (by omega)

/-- A signature has no characters beyond ASCII, in letters of either case. -/
theorem ascii_signature {digits : List Char} {bytes : Bytes}
    (h : digits.map Char.toLower = hexOfBytes bytes) :
    ∀ c ∈ signatureStart ++ digits, c.toNat < 128 := by
  intro c hc
  rcases List.mem_append.mp hc with hc | hc
  · exact Nat.lt_succ_of_lt (printable_signatureStart c hc).2
  · exact toNat_lt_of_digits h c hc

/-- A value is read as a signature exactly if it is one. -/
theorem signsBytes_iff {value bytes : Bytes} (hvalue : Headers.Printable value) :
    SignsBytes value bytes ↔ signatureBytes? (ofAscii value) = some bytes := by
  rw [signatureBytes?_eq_some_iff]
  constructor
  · rintro ⟨digits, rfl, hdigits⟩
    refine ⟨digits.toList, ?_, hdigits⟩
    rw [signature_eq_ofList, ofAscii_utf8 (ascii_signature hdigits)]
  · rintro ⟨digits, hsplit, hdigits⟩
    refine ⟨String.ofList digits, ?_, String.toList_ofList.symm ▸ hdigits⟩
    rw [signature_eq_ofList, String.toList_ofList, ← hsplit, utf8_ofAscii hvalue.ascii]

/-- A signature of so many bytes has so many characters, and begins with its start. -/
theorem SignsBytes.shape {value bytes : Bytes} (h : SignsBytes value bytes) :
    value.length = 7 + 2 * bytes.length ∧ utf8 "sha256=" <+: value := by
  obtain ⟨digits, rfl, hdigits⟩ := h
  refine ⟨?_, utf8 digits, (utf8_append _ _).symm⟩
  have hlength : digits.toList.length = 2 * bytes.length := by
    rw [← length_hexOfBytes, ← hdigits, List.length_map]
  rw [signature_eq_ofList, utf8_of_ascii (ascii_signature hdigits), List.length_map,
    List.length_append, hlength]
  rfl

/-- What is written as a signature is one, and may stand in a header. -/
theorem signsBytes_sign (secret body : Bytes) :
    SignsBytes (utf8 (sign secret body)) (Hmac.code secret body) ∧
    Headers.Printable (utf8 (sign secret body)) := by
  constructor
  · refine ⟨String.ofList (hexOfBytes (Hmac.code secret body)), ?_, ?_⟩
    · rw [signature_eq_ofList, String.toList_ofList, sign]
    · rw [String.toList_ofList, map_toLower_hexOfBytes]
  · refine Headers.printable_utf8 fun c hc => ?_
    exact (List.mem_append.mp hc).elim (printable_signatureStart c) printable_of_mem_hexOfBytes

/-! ## What each provider asks -/

section

variable {headers : Headers} {body secret : Bytes}

/-- **GitHub** asks for a signature of the body. -/
theorem authenticates_github_iff : github.authenticates headers body secret = true ↔
    ∃ value, headers.FirstIs "x-hub-signature-256" value ∧ Headers.Printable value ∧
      SignsBytes value (Hmac.code secret body) := by
  -- first what is asked of the text that is read, then what that says of the bytes of the header
  have hread : github.authenticates headers body secret = true ↔
      ∃ signature, headers.text? github.credentialHeader = some signature ∧
        signatureBytes? signature = some (Hmac.code secret body) := by
    unfold authenticates
    cases headers.text? github.credentialHeader <;> simp
  rw [hread]
  constructor
  · rintro ⟨_, htext, hsignature⟩
    obtain ⟨value, hfirst, hprintable, rfl⟩ := Headers.text?_eq_some_iff.mp htext
    exact ⟨value, hfirst, hprintable, (signsBytes_iff hprintable).mpr hsignature⟩
  · rintro ⟨value, hfirst, hprintable, hsigns⟩
    exact ⟨_, Headers.text?_eq_some_iff.mpr ⟨value, hfirst, hprintable, rfl⟩,
      (signsBytes_iff hprintable).mp hsigns⟩

/-- **GitLab** asks for a token with the code of the secret, and for a secret with some byte. -/
theorem authenticates_gitlab_iff : gitlab.authenticates headers body secret = true ↔
    secret ≠ [] ∧ ∃ token, headers.FirstIs "x-gitlab-token" token ∧ Headers.Printable token ∧
      Hmac.code secret token = Hmac.code secret secret := by
  -- as for GitHub, but the token is compared by its bytes; a text of ASCII is told by these
  have hread : gitlab.authenticates headers body secret = true ↔
      ∃ text, headers.text? gitlab.credentialHeader = some text ∧ secret ≠ [] ∧
        Hmac.code secret (text.map fun c => UInt8.ofNat c.toNat) = Hmac.code secret secret := by
    unfold authenticates
    cases headers.text? gitlab.credentialHeader <;> simp
  rw [hread]
  constructor
  · rintro ⟨_, htext, hsecret, hcode⟩
    obtain ⟨token, hfirst, hprintable, rfl⟩ := Headers.text?_eq_some_iff.mp htext
    exact ⟨hsecret, token, hfirst, hprintable, map_ofAscii hprintable.ascii ▸ hcode⟩
  · rintro ⟨hsecret, token, hfirst, hprintable, hcode⟩
    refine ⟨_, Headers.text?_eq_some_iff.mpr ⟨token, hfirst, hprintable, rfl⟩, hsecret, ?_⟩
    rw [map_ofAscii hprintable.ascii, hcode]

end

end Provider

/-! ## The result -/

open Provider

/-- **Credentials are checked exactly.**  GitHub authenticates a delivery exactly if the first value
under the header is printable and is `sha256=` with the digits, in letters of either case, of the
code of the body under the secret, which has 32 bytes.  So what is written as a signature is
accepted, and a value of another length or with another start is refused.  GitLab authenticates a
delivery, whatever its body, exactly if the first value under its header is printable and is the
secret, so long as the codes of the two do not collide under the secret. -/
theorem credentials_exact (headers : Headers) (body secret : Bytes) (hsecret : secret ≠ []) :
    (Hmac.code secret body).length = 32 ∧
    (github.authenticates headers body secret = true ↔
      ∃ value, headers.FirstIs "x-hub-signature-256" value ∧ Headers.Printable value ∧
        SignsBytes value (Hmac.code secret body)) ∧
    (headers.FirstIs "x-hub-signature-256" (utf8 (sign secret body)) →
      github.authenticates headers body secret = true) ∧
    (∀ value, headers.FirstIs "x-hub-signature-256" value →
      value.length ≠ (utf8 (sign secret body)).length ∨ ¬ utf8 "sha256=" <+: value →
      github.authenticates headers body secret = false) ∧
    ((∀ token, headers.FirstIs "x-gitlab-token" token → Hmac.Separates secret token secret) →
      (gitlab.authenticates headers body secret = true ↔
        ∃ token, headers.FirstIs "x-gitlab-token" token ∧ Headers.Printable token ∧
          token = secret)) := by
  obtain ⟨hsigns, hwritten⟩ := signsBytes_sign secret body
  refine ⟨Hmac.length_code secret body, authenticates_github_iff, ?_, ?_, ?_⟩
  · intro hfirst
    exact authenticates_github_iff.mpr ⟨_, hfirst, hwritten, hsigns⟩
  · -- a value that is accepted has the length and the start of a signature
    intro value hfirst hother
    by_contra haccepted
    obtain ⟨signature, hsignature, -, haccepted⟩ :=
      authenticates_github_iff.mp (Bool.eq_true_of_not_eq_false haccepted)
    obtain rfl := hfirst.unique hsignature
    obtain ⟨hlength, hstart⟩ := haccepted.shape
    rcases hother with hother | hother
    · exact hother (hlength.trans hsigns.shape.1.symm)
    · exact hother hstart
  · intro hseparates
    rw [authenticates_gitlab_iff]
    constructor
    · rintro ⟨-, token, hfirst, hprintable, hcode⟩
      exact ⟨token, hfirst, hprintable, hseparates token hfirst hcode⟩
    · rintro ⟨token, hfirst, hprintable, rfl⟩
      exact ⟨hsecret, token, hfirst, hprintable, rfl⟩

/-- The code of the body `{}` under the secret `s3cret`, in capital letters. -/
def capitalDigits : String := "ADBDE1CE40C89C14215687D5D762A47DF6DFAEFCFAD61E2E86718FFC8498571B"

/-- The headers of a delivery with this signature, and with a token that lacks its last
character. -/
def mixedHeaders : Headers :=
  ⟨[("x-hub-signature-256", utf8 ("sha256=" ++ capitalDigits)), ("x-gitlab-token", utf8 "s3cre")]⟩

/-- The signature is accepted and the token is refused. -/
theorem credentials_exact_mixed : utf8 "s3cret" ≠ [] ∧
    Hmac.Separates (utf8 "s3cret") (utf8 "s3cre") (utf8 "s3cret") ∧
    github.authenticates mixedHeaders (utf8 "\x7b\x7d") (utf8 "s3cret") = true ∧
    gitlab.authenticates mixedHeaders (utf8 "\x7b\x7d") (utf8 "s3cret") = false := by
  have hsecret : utf8 "s3cret" ≠ [] := by decide +kernel
  -- the two codes are computed, so the assumption that they do not collide holds
  have hcodes : Hmac.code (utf8 "s3cret") (utf8 "s3cre") ≠ Hmac.code (utf8 "s3cret")
      (utf8 "s3cret") := by
    decide +kernel
  have hsignature : mixedHeaders.FirstIs "x-hub-signature-256"
      (utf8 ("sha256=" ++ capitalDigits)) :=
    ⟨[], _, rfl, nofun⟩
  have htoken : mixedHeaders.FirstIs "x-gitlab-token" (utf8 "s3cre") := ⟨[_], [], rfl, by decide⟩
  have hprintable : Headers.Printable (utf8 ("sha256=" ++ capitalDigits)) := by decide +kernel
  have hdigits : capitalDigits.toList.map Char.toLower =
      hexOfBytes (Hmac.code (utf8 "s3cret") (utf8 "\x7b\x7d")) := by decide +kernel
  obtain ⟨-, hgithub, -, -, hgitlab⟩ := credentials_exact mixedHeaders (utf8 "\x7b\x7d")
    (utf8 "s3cret") hsecret
  refine ⟨hsecret, fun h => absurd h hcodes, ?_, Bool.eq_false_iff.mpr fun haccepted => ?_⟩
  · exact hgithub.mpr ⟨_, hsignature, hprintable, capitalDigits, rfl, hdigits⟩
  · have hseparates : ∀ token, mixedHeaders.FirstIs "x-gitlab-token" token →
        Hmac.Separates (utf8 "s3cret") token (utf8 "s3cret") := fun token hfirst => by
      obtain rfl := hfirst.unique htoken
      exact fun h => absurd h hcodes
    obtain ⟨_, hfirst, -, rfl⟩ := (hgitlab hseparates).mp haccepted
    exact hcodes (congrArg _ (htoken.unique hfirst))

end PushBuild
