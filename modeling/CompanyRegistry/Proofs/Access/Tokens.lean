import CompanyRegistry.Access.Token
import CompanyRegistry.Proofs.Access.Claims
import CompanyRegistry.Proofs.Access.Validation
import CompanyRegistry.Proofs.Text.Base64
import CompanyRegistry.Proofs.Text.Blanks
import Mathlib.Data.List.TakeWhile

/-!
# Which tokens are accepted

A token is taken apart at its last two points. Parts are texts of octets and hold no point, so a token that
is accepted has exactly two, and everything in it is settled (`decode_eq_ok_iff`): the header and the
payload by their octets, the signature by both. `accepted_token_is_signed` says what follows for whoever
holds an accepted token, `decode_encode` that the tokens written here are accepted throughout their window.
-/

namespace CompanyRegistry.Token

variable {k : Key} {clock now : Int} {token : String} {c : Claims}

/-! ### Parts -/

theorem digit_of_mem_part {b : Bytes} {ch : Char} (h : ch ∈ part b) :
    ∃ n : Fin 64, Base64.urlSafe.digit n = ch := by
  obtain ⟨n, hn, hdigit⟩ := List.mem_map.mp h
  exact ⟨⟨n, Base64.lt_of_mem_sextets hn⟩, hdigit⟩

theorem point_not_mem_part (b : Bytes) : '.' ∉ part b := by
  intro h
  have hdigit : ∀ n : Fin 64, Base64.urlSafe.digit n ≠ '.' := by decide
  obtain ⟨n, hpoint⟩ := digit_of_mem_part h
  exact hdigit n hpoint

theorem readPart_eq_ok_iff {α : Type} {decode : Json.Decoder α} {cs : List Char} {a : α} :
    readPart decode cs = .ok a ↔ ∃ b, cs = part b ∧ Json.decodeText decode b = .ok a := by
  have hdecode : ∀ b, Base64.decode? Base64.urlSafe .never cs = some b ↔ cs = part b :=
    fun b => Base64.decode?_eq_some_iff Base64.urlSafe_proper (by decide)
  unfold readPart
  cases hoctets : Base64.decode? Base64.urlSafe .never cs with
  | none =>
    simp only [reduceCtorEq, false_iff]
    rintro ⟨b, hpart, -⟩
    rw [(hdecode b).mpr hpart] at hoctets
    cases hoctets
  | some b =>
    have hpart := (hdecode b).mp hoctets
    rw [mapError_eq_ok_iff]
    constructor
    · exact fun h => ⟨b, hpart, h⟩
    · rintro ⟨b', hpart', h⟩
      rw [(hdecode b').mpr hpart'] at hoctets
      cases hoctets
      exact h

theorem splitLast?_eq_some_iff {cs before after : List Char} :
    splitLast? cs = some (before, after) ↔ cs = before ++ '.' :: after ∧ '.' ∉ after := by
  unfold splitLast?
  constructor
  · intro h
    split at h
    · cases h
    · rename_i x rest hdrop
      cases h
      have hx : x = '.' := by
        have hhead := List.head?_dropWhile_not (fun c => decide (c ≠ '.')) cs.reverse
        rw [hdrop] at hhead
        simpa using hhead
      have hsplit := List.takeWhile_append_dropWhile (p := (· ≠ '.')) (l := cs.reverse)
      refine ⟨?_, ?_⟩
      · rw [hdrop, hx] at hsplit
        have hreverse := congrArg List.reverse hsplit
        simpa using hreverse.symm
      · intro hmem
        have hne := List.mem_takeWhile_imp (List.mem_reverse.mp hmem)
        simp at hne
  · rintro ⟨rfl, hafter⟩
    have hpass : ∀ x ∈ after.reverse, decide (x ≠ '.') = true := by
      intro x hx
      apply decide_eq_true
      rintro rfl
      exact hafter (List.mem_reverse.mp hx)
    rw [List.reverse_append, List.reverse_cons, List.append_assoc,
      List.dropWhile_append_of_pos hpass, List.takeWhile_append_of_pos hpass]
    simp

/-! ### What is checked -/

/-- The text of a header and a payload that a signature belongs to. -/
def body (header payload : Bytes) : List Char := part header ++ '.' :: part payload

theorem checkClaims_eq_ok_iff : checkClaims clock c = .ok () ↔
    (0 ≤ c.notBefore.toInt ∧ 0 ≤ c.expires.toInt) ∧
      (c.notBefore.toInt ≤ clock ∧ clock ≤ c.expires.toInt) ∧
      c.issuer = Claims.authority ∧ c.audience = Claims.authority := by
  unfold checkClaims
  split_ifs with hexpires hstart hlate hearly hissuer haudience
  all_goals simp only [true_iff, false_iff]
  · omega
  · omega
  · omega
  · omega
  · exact fun h => hissuer h.2.2.1
  · exact fun h => haudience h.2.2.2
  · exact ⟨by omega, by omega, not_not.mp hissuer, not_not.mp haudience⟩

theorem verify_eq_ok_iff : verify k clock token = .ok c ↔
    ∃ header payload : Bytes,
      token.toList = body header payload ++ '.' :: signature k (body header payload) ∧
      Json.decodeText headerAlgorithm header = .ok "HS256" ∧
      Json.decodeText Claims.ofPayload payload = .ok c ∧ checkClaims clock c = .ok () := by
  constructor
  · intro h
    unfold verify at h
    split at h
    · cases h
    · rename_i text sign htoken
      split at h
      · cases h
      · rename_i head claims htext
        obtain ⟨htoken, -⟩ := splitLast?_eq_some_iff.mp htoken
        obtain ⟨rfl, -⟩ := splitLast?_eq_some_iff.mp htext
        obtain ⟨algorithm, halgorithm, h⟩ := bind_eq_ok_iff.mp h
        split_ifs at h with hother hsign
        obtain ⟨read, hread, h⟩ := bind_eq_ok_iff.mp h
        obtain ⟨_, hcheck, h⟩ := bind_eq_ok_iff.mp h
        cases h
        obtain ⟨header, rfl, hheader⟩ := readPart_eq_ok_iff.mp halgorithm
        obtain ⟨payload, rfl, hpayload⟩ := readPart_eq_ok_iff.mp hread
        rw [not_not] at hother hsign
        subst hother hsign
        exact ⟨header, payload, htoken, hheader, hpayload, hcheck⟩
  · rintro ⟨header, payload, htoken, hheader, hpayload, hcheck⟩
    have hlast : splitLast? token.toList =
        some (body header payload, signature k (body header payload)) :=
      splitLast?_eq_some_iff.mpr ⟨htoken, point_not_mem_part _⟩
    have hfirst : splitLast? (body header payload) = some (part header, part payload) :=
      splitLast?_eq_some_iff.mpr ⟨rfl, point_not_mem_part _⟩
    have halgorithm : readPart headerAlgorithm (part header) = .ok "HS256" :=
      readPart_eq_ok_iff.mpr ⟨header, rfl, hheader⟩
    have hclaims : readPart Claims.ofPayload (part payload) = .ok c :=
      readPart_eq_ok_iff.mpr ⟨payload, rfl, hpayload⟩
    unfold verify
    simp only [hlast, hfirst]
    refine bind_eq_ok_iff.mpr ⟨_, halgorithm, ?_⟩
    rw [if_neg (not_not.mpr rfl), if_neg (not_not.mpr rfl)]
    exact bind_eq_ok_iff.mpr ⟨c, hclaims, bind_eq_ok_iff.mpr ⟨(), hcheck, rfl⟩⟩

theorem decode_eq_ok_iff :
    decode k clock now token = .ok c ↔ verify k clock token = .ok c ∧ c.InWindow now := by
  unfold decode
  cases hverify : verify k clock token with
  | error f => simp
  | ok claims =>
    simp only [Except.ok.injEq, ← Claims.checkWindow_eq_ok_iff]
    constructor
    · intro h
      split at h
      · cases h
      · rename_i hwindow
        cases h
        exact ⟨rfl, hwindow⟩
    · rintro ⟨rfl, hwindow⟩
      rw [hwindow]

/-! ### Tokens written here -/

theorem encode_toList (k : Key) (c : Claims) :
    (encode k c).toList =
      body (Bytes.utf8 header.render) (Bytes.utf8 c.toJson.render) ++
        '.' :: signature k (body (Bytes.utf8 header.render) (Bytes.utf8 c.toJson.render)) :=
  String.toList_ofList

/-- What holds of the point and of every digit holds of each character of a token. -/
theorem forall_encode {P : Char → Prop} (hpoint : P '.')
    (hdigit : ∀ n : Fin 64, P (Base64.urlSafe.digit n)) (k : Key) (c : Claims) :
    ∀ ch ∈ (encode k c).toList, P ch := by
  have hpart : ∀ b, ∀ ch ∈ part b, P ch := by
    intro b ch hb
    obtain ⟨n, rfl⟩ := digit_of_mem_part hb
    exact hdigit n
  intro ch h
  rw [encode_toList, body] at h
  simp only [List.mem_append, List.mem_cons] at h
  rcases h with (hheader | rfl | hpayload) | rfl | hsign
  · exact hpart _ ch hheader
  · exact hpoint
  · exact hpart _ ch hpayload
  · exact hpoint
  · exact hpart _ ch hsign

/-- A token written here is found where a client puts it. -/
theorem bears_encode (k : Key) (c : Claims) : Bears ("Bearer " ++ encode k c) (encode k c) := by
  have hblank : ∀ ch ∈ (encode k c).toList, Text.isBlank ch = false :=
    forall_encode (by decide) (by decide) k c
  refine ⟨?_, (encode k c).toList, ?_, ?_⟩
  · intro hempty
    have hlist := congrArg String.toList hempty
    rw [encode_toList] at hlist
    simp at hlist
  · exact (Text.trim_of_not_blank hblank).symm
  · exact Or.inl String.toList_append

theorem headerAlgorithm_header : Json.decodeText headerAlgorithm (Bytes.utf8 header.render) = .ok "HS256" := by
  have hwritten : Json.Written header := by
    rw [header, Json.written_record_iff]
    simp [Json.Written]
  rw [Json.decodeText_render hwritten]
  rfl

theorem verify_encode (h : checkClaims clock c = .ok ()) : verify k clock (encode k c) = .ok c :=
  verify_eq_ok_iff.mpr ⟨_, _, encode_toList k c, headerAlgorithm_header, c.decodeText_toJson, h⟩

/-- **A token is read as the claims it was written for**, throughout their window. -/
theorem decode_encode (k : Key) (c : Claims) (hissuer : c.issuer = Claims.authority)
    (haudience : c.audience = Claims.authority) (hstart : 0 ≤ c.notBefore.toInt)
    (hclock : c.InWindow clock) (hnow : c.InWindow now) :
    decode k clock now (encode k c) = .ok c := by
  have hchecked : checkClaims clock c = .ok () := by
    obtain ⟨hearly, hlate⟩ := hclock
    refine checkClaims_eq_ok_iff.mpr ⟨⟨hstart, ?_⟩, ⟨hearly, ?_⟩, hissuer, haudience⟩
    · omega
    · omega
  exact decode_eq_ok_iff.mpr ⟨verify_encode hchecked, hnow⟩

/-- A session of a user called `a"b`, from 1970 on for ten seconds. -/
def briefClaims : Claims := ⟨.user, -7, "a\"b", "as", "as", 0, 10⟩

def briefKey : Key := ⟨[0x6B], by decide⟩

theorem decode_encode_brief :
    (0 ≤ briefClaims.notBefore.toInt ∧ briefClaims.InWindow 0 ∧ briefClaims.InWindow 9) ∧
      decode briefKey 0 9 (encode briefKey briefClaims) = .ok briefClaims := by
  have hstart : 0 ≤ briefClaims.notBefore.toInt := by decide
  have hclock : briefClaims.InWindow 0 := ⟨by decide, by decide⟩
  have hnow : briefClaims.InWindow 9 := ⟨by decide, by decide⟩
  exact ⟨⟨hstart, hclock, hnow⟩, decode_encode briefKey briefClaims rfl rfl hstart hclock hnow⟩

/-! ### Tokens from elsewhere -/

/-- A header names an algorithm where `alg` stands in it, as a string or as an object's only member. -/
def Names (header : Bytes) (algorithm : String) : Prop :=
  ∃ v w, Json.Reads header v ∧ Json.Gives headerFields "alg" v w ∧
    (w = .text algorithm ∨ w = .object [.entry (some algorithm) .null])

/-- A payload is an object that tells claims. -/
def Tells (payload : Bytes) (c : Claims) : Prop :=
  ∃ members, Json.Reads payload (.object members) ∧ c.Told members

theorem names_of_headerAlgorithm {b : Bytes} {algorithm : String}
    (h : Json.decodeText headerAlgorithm b = .ok algorithm) : Names b algorithm := by
  obtain ⟨v, hreads, h⟩ := Json.decodeText_eq_ok_iff.mp h
  obtain ⟨found, hfind, h⟩ := bind_eq_ok_iff.mp h
  have hrequired : found.required "alg" readAlgorithm = .ok algorithm := by
    split at h
    · dsimp only at h
      split_ifs at h
      · cases h
      · exact h
    · exact h
  obtain ⟨w, hw, hread⟩ := Json.lookup_of_required hrequired
  obtain ⟨s, hknown, hvariant⟩ := Json.variant_of_asVariant hread
  have hs : s = algorithm := by
    split_ifs at hknown
    exact Option.some.inj hknown
  subst hs
  exact ⟨v, w, hreads, Json.gives_of_find (by decide) hfind hw, hvariant⟩

theorem tells_of_ofPayload {b : Bytes} (h : Json.decodeText Claims.ofPayload b = .ok c) :
    Tells b c := by
  obtain ⟨v, hreads, h⟩ := Json.decodeText_eq_ok_iff.mp h
  obtain ⟨members, rfl, htold⟩ := Claims.told_of_ofPayload h
  exact ⟨members, hreads, htold⟩

theorem count_point_signed (header payload : Bytes) (sign : List Char) :
    (body header payload ++ '.' :: sign).count '.' = 2 + sign.count '.' := by
  have hzero : ∀ b, (part b).count '.' = 0 := fun b => List.count_eq_zero.mpr (point_not_mem_part b)
  simp only [body, List.append_assoc, List.cons_append, List.count_append, List.count_cons_self, hzero]
  omega

theorem count_point_signature (k : Key) (text : List Char) : (signature k text).count '.' = 0 :=
  List.count_eq_zero.mpr (point_not_mem_part _)

/-- Whatever stands for the signature of a header and a payload, only their signature is accepted. -/
theorem sign_of_decode {header payload : Bytes} {sign : List Char}
    (h : decode k clock now (String.ofList (body header payload ++ '.' :: sign)) = .ok c) :
    sign = signature k (body header payload) := by
  obtain ⟨hverify, -⟩ := decode_eq_ok_iff.mp h
  obtain ⟨header', payload', htoken, -⟩ := verify_eq_ok_iff.mp hverify
  rw [String.toList_ofList] at htoken
  -- as many points in all, so none in the sign: both sides are split at the same one
  have hpoint : '.' ∉ sign := by
    have hcount := congrArg (List.count '.') htoken
    rw [count_point_signed, count_point_signed, count_point_signature] at hcount
    exact List.count_eq_zero.mp (by omega)
  have hsplit := splitLast?_eq_some_iff.mpr ⟨htoken, point_not_mem_part _⟩
  rw [splitLast?_eq_some_iff.mpr ⟨rfl, hpoint⟩] at hsplit
  simp only [Option.some.injEq, Prod.mk.injEq] at hsplit
  obtain ⟨hbody, hsign⟩ := hsplit
  rw [hsign, hbody]

/-- **What is accepted is signed.** A token that is read as claims is a header, a payload and their only
signature, the keyed digest of the two as they stand there; the header names the one algorithm, the payload
tells the claims, and these hold now. -/
theorem accepted_token_is_signed (h : decode k clock now token = .ok c) :
    ∃ header payload : Bytes,
      token.toList = body header payload ++
        '.' :: part (Sha256.mac k.secret (Bytes.utf8 (String.ofList (body header payload)))) ∧
      token.toList.count '.' = 2 ∧
      Names header "HS256" ∧
      Json.decodeText Claims.ofPayload payload = .ok c ∧ Tells payload c ∧
      c.issuer = "as" ∧ c.audience = "as" ∧
      0 ≤ c.notBefore.toInt ∧ c.notBefore.toInt < c.expires.toInt ∧
      c.notBefore.toInt ≤ now ∧ now < c.expires.toInt ∧
      ∀ sign : List Char,
        (∃ c', decode k clock now (String.ofList (body header payload ++ '.' :: sign)) = .ok c') ↔
          sign = part (Sha256.mac k.secret (Bytes.utf8 (String.ofList (body header payload)))) := by
  obtain ⟨hverify, hearly, hlate⟩ := decode_eq_ok_iff.mp h
  obtain ⟨header, payload, htoken, hheader, hpayload, hchecked⟩ := verify_eq_ok_iff.mp hverify
  obtain ⟨⟨hstart, -⟩, -, hissuer, haudience⟩ := checkClaims_eq_ok_iff.mp hchecked
  have hcount : token.toList.count '.' = 2 := by
    rw [htoken, count_point_signed, count_point_signature]
  refine ⟨header, payload, htoken, hcount, names_of_headerAlgorithm hheader, hpayload,
    tells_of_ofPayload hpayload, hissuer, haudience, hstart, by omega, hearly, hlate, ?_⟩
  intro sign
  constructor
  · rintro ⟨c', haccepted⟩
    exact sign_of_decode haccepted
  · rintro rfl
    refine ⟨c, ?_⟩
    change decode k clock now
      (String.ofList (body header payload ++ '.' :: signature k (body header payload))) = .ok c
    rw [← htoken, String.ofList_toList]
    exact h

theorem brief_token_is_signed :
    decode briefKey 0 9 (encode briefKey briefClaims) = .ok briefClaims ∧
      ∃ header payload : Bytes,
        (encode briefKey briefClaims).toList = body header payload ++
          '.' :: part (Sha256.mac briefKey.secret (Bytes.utf8 (String.ofList (body header payload)))) ∧
        (encode briefKey briefClaims).toList.count '.' = 2 ∧
        Names header "HS256" ∧
        Json.decodeText Claims.ofPayload payload = .ok briefClaims ∧ Tells payload briefClaims ∧
        briefClaims.issuer = "as" ∧ briefClaims.audience = "as" ∧
        0 ≤ briefClaims.notBefore.toInt ∧ briefClaims.notBefore.toInt < briefClaims.expires.toInt ∧
        briefClaims.notBefore.toInt ≤ 9 ∧ 9 < briefClaims.expires.toInt ∧
        ∀ sign : List Char,
          (∃ c', decode briefKey 0 9 (String.ofList (body header payload ++ '.' :: sign)) = .ok c') ↔
            sign = part (Sha256.mac briefKey.secret
              (Bytes.utf8 (String.ofList (body header payload)))) := by
  have hread : decode briefKey 0 9 (encode briefKey briefClaims) = .ok briefClaims :=
    decode_eq_ok_iff.mpr ⟨verify_encode rfl, by decide, by decide⟩
  exact ⟨hread, accepted_token_is_signed hread⟩

end CompanyRegistry.Token
