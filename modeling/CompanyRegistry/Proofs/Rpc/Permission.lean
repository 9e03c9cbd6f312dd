import CompanyRegistry.Proofs.Access.Tokens
import CompanyRegistry.Proofs.Http.Headers
import CompanyRegistry.Rpc.Service

/-!
# Who may change the register

`MayChange` says in the words of the contract whose authorisation lets a call change the register: it is
printable, bears a token of the server's own key, and the token's claims are those of a user, inside
their window, whom the store knows now. A token that is written for such a user will do
(`mayChange_of_bears`). `authorize_cases`: over a store in memory the check of the service
is exactly this, and whoever fails it is answered `unauthenticated`.
-/

namespace CompanyRegistry.Rpc

/-- An authorisation allows changes of the register at an instant. -/
def MayChange (key : Token.Key) (store : Store) (now : Instant) (authorization : Option Bytes) :
    Prop :=
  ∃ value text token claims,
    authorization = some value ∧ Http.headerText? value = some text ∧ Bears text token ∧
    Token.decode key now.unixSeconds now.unixSeconds token = .ok claims ∧
    claims.subject = .user ∧ claims.InWindow now.unixSeconds ∧ store.Knows claims

/-! ### Whoever bears a token written here -/

theorem headerText?_utf8 {s : String} (h : ∀ c ∈ s.toList, 0x20 ≤ c.toNat ∧ c.toNat < 0x7F) :
    Http.headerText? (Bytes.utf8 s) = some s := by
  refine Http.headerText?_eq_some_iff.mpr ⟨?_, rfl⟩
  intro x hx
  rw [Bytes.utf8_eq_ofChars] at hx
  obtain ⟨c, hc, hx⟩ := List.mem_flatMap.mp hx
  obtain ⟨hlow, hhigh⟩ := h c hc
  have hascii : c.toNat < 0x80 := Nat.lt_succ_of_lt hhigh
  rw [Bytes.encode_ascii hascii, List.mem_singleton] at hx
  have hnumber : x.toNat = c.toNat := by
    rw [hx]
    exact Bytes.toNat_ofNat_octet (Nat.lt_trans hascii (by decide))
  rw [UInt8.le_iff_toNat_le, UInt8.lt_iff_toNat_lt, hnumber]
  exact Or.inl ⟨hlow, hhigh⟩

/-- A token that is written for a known user allows changes throughout its window, in whatever text it is
found. -/
theorem mayChange_of_bears {key : Token.Key} {store : Store} {now : Instant} {claims : Claims}
    {text : String} (hprintable : ∀ c ∈ text.toList, 0x20 ≤ c.toNat ∧ c.toNat < 0x7F)
    (hbears : Bears text (Token.encode key claims))
    (huser : claims.subject = .user) (hchecked : Token.checkClaims now.unixSeconds claims = .ok ())
    (hwindow : claims.InWindow now.unixSeconds) (hknown : store.Knows claims) :
    MayChange key store now (some (Bytes.utf8 text)) :=
  ⟨_, _, _, claims, rfl, headerText?_utf8 hprintable, hbears,
    Token.decode_eq_ok_iff.mpr ⟨Token.verify_encode hchecked, hwindow⟩, huser, hwindow, hknown⟩

theorem printable_encode (key : Token.Key) (claims : Claims) :
    ∀ c ∈ (Token.encode key claims).toList, 0x20 ≤ c.toNat ∧ c.toNat < 0x7F :=
  Token.forall_encode (P := fun c => 0x20 ≤ c.toNat ∧ c.toNat < 0x7F) (by decide) (by decide) key
    claims

theorem printable_bearer (key : Token.Key) (claims : Claims) :
    ∀ c ∈ ("Bearer " ++ Token.encode key claims).toList, 0x20 ≤ c.toNat ∧ c.toNat < 0x7F := by
  intro c hc
  rw [String.toList_append] at hc
  rcases List.mem_append.mp hc with hprefix | htoken
  · have hall : ("Bearer ".toList.all fun c => decide (0x20 ≤ c.toNat ∧ c.toNat < 0x7F)) = true := by
      decide
    exact of_decide_eq_true (List.all_eq_true.mp hall c hprefix)
  · exact printable_encode key claims c htoken

theorem mayChange_of_encode {key : Token.Key} {store : Store} {now : Instant} {claims : Claims}
    (huser : claims.subject = .user) (hchecked : Token.checkClaims now.unixSeconds claims = .ok ())
    (hwindow : claims.InWindow now.unixSeconds) (hknown : store.Knows claims) :
    MayChange key store now (some (Bytes.utf8 ("Bearer " ++ Token.encode key claims))) :=
  mayChange_of_bears (printable_bearer key claims) (Token.bears_encode key claims) huser hchecked
    hwindow hknown

/-! ### The check of the service -/

namespace Service

/-- The service of a store in memory, all of which is in order. -/
def inMemory (key : Token.Key) (store : Store) : Service := { key, store }

theorem bearer_eq_some_iff {authorization : Option Bytes} {token : String} :
    (authorization.bind Http.headerText?).bind Validator.tokenOf? = some token ↔
      ∃ value text, authorization = some value ∧ Http.headerText? value = some text ∧
        Bears text token := by
  simp only [Option.bind_eq_some_iff, Validator.tokenOf?_eq_some_iff]
  constructor
  · rintro ⟨text, ⟨value, hvalue, htext⟩, hbears⟩
    exact ⟨value, text, hvalue, htext, hbears⟩
  · rintro ⟨value, text, hvalue, htext, hbears⟩
    exact ⟨text, ⟨value, hvalue, htext⟩, hbears⟩

theorem unauthenticated_of_not_internal {e : AuthError} (h : e.isInternal = false) :
    ∃ message, Status.ofAuthError e = .unauthenticated message := by
  unfold Status.ofAuthError
  rw [if_neg (by simp [h])]
  exact ⟨_, rfl⟩

/-- The check lets through who may change the register, and answers everyone else
`unauthenticated`. -/
theorem authorize_cases (key : Token.Key) (store : Store) (now : Instant)
    (authorization : Option Bytes) (op : Operation) :
    (MayChange key store now authorization ∧
      (inMemory key store).authorize now authorization op = .ok ()) ∨
    (¬ MayChange key store now authorization ∧ ∃ message,
      (inMemory key store).authorize now authorization op =
        .error (.unauthenticated message)) := by
  have herror : ∀ e : AuthError, e.isInternal = false →
      Validator.validate key store.probe now.unixSeconds now.unixSeconds
        (authorization.bind Http.headerText?) op [Rule.activeUser] = .error e →
      ∃ message, (inMemory key store).authorize now authorization op =
        .error (.unauthenticated message) := by
    intro e he hvalidate
    obtain ⟨message, hstatus⟩ := unauthenticated_of_not_internal he
    refine ⟨message, ?_⟩
    simp only [authorize, identities, inMemory, hvalidate, hstatus]
  -- one case for each stage at which the check can end, in its order
  cases hbearer : (authorization.bind Http.headerText?).bind Validator.tokenOf? with
  | none =>
    refine Or.inr ⟨?_, herror .missingToken rfl (by simp only [Validator.validate, hbearer])⟩
    rintro ⟨value, text, token, claims, hvalue, htext, hbears, -⟩
    rw [bearer_eq_some_iff.mpr ⟨value, text, hvalue, htext, hbears⟩] at hbearer
    cases hbearer
  | some token =>
    cases hdecode : Token.decode key now.unixSeconds now.unixSeconds token with
    | error r =>
      refine Or.inr ⟨?_, herror (.invalidToken r) rfl
        (by simp only [Validator.validate, hbearer, hdecode])⟩
      rintro ⟨value, text, token', claims, hvalue, htext, hbears, hdecode', -⟩
      rw [bearer_eq_some_iff.mpr ⟨value, text, hvalue, htext, hbears⟩] at hbearer
      cases hbearer
      cases hdecode.symm.trans hdecode'
    | ok claims =>
      rcases Store.checkRules_activeUser store op claims with
        ⟨huser, hknows, hrules⟩ | ⟨hunknown, hrules⟩
      · obtain ⟨value, text, hvalue, htext, hbears⟩ := bearer_eq_some_iff.mp hbearer
        refine Or.inl ⟨⟨value, text, token, claims, hvalue, htext, hbears, hdecode, huser,
          Token.decode_inWindow hdecode, hknows⟩, ?_⟩
        simp only [authorize, identities, inMemory, Validator.validate, hbearer, hdecode, hrules,
          Except.map]
      · refine Or.inr ⟨?_, herror (.denied Rule.activeUser.name op) rfl
          (by simp only [Validator.validate, hbearer, hdecode, hrules, Except.map])⟩
        rintro ⟨value, text, token', claims', hvalue, htext, hbears, hdecode', huser, -, hknows⟩
        rw [bearer_eq_some_iff.mpr ⟨value, text, hvalue, htext, hbears⟩] at hbearer
        cases hbearer
        cases hdecode.symm.trans hdecode'
        exact hunknown ⟨huser, hknows⟩

end Service

end CompanyRegistry.Rpc
