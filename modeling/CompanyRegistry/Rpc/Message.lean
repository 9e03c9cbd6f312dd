import CompanyRegistry.Wire.Field
import CompanyRegistry.Company.Basic

/-!
# The messages of the contract

What callers and the service exchange. A company travels as a `Record`, whose identifier is any text and
whose legal form is any number, so that it can be wrong in ways a `Company` cannot. Every field has a
default, which is not written; where a field comes twice the later wins, and of a message that comes
twice the later fields are laid over the earlier.
-/

namespace CompanyRegistry.Rpc

/-! ### Legal forms as numbers -/

/-- The number of a legal form; zero is left for "not given". -/
def kindNumber : Company.Kind → Int32
  | .corporation => 1
  | .nonProfit => 2
  | .cooperative => 3
  | .soleProprietorship => 4

/-- Why a number stands for no legal form. -/
structure UnknownKind where
  number : Int32
  deriving DecidableEq, Repr

/-- The legal form with this number, `none` for zero. -/
def kindOfNumber (n : Int32) : Except UnknownKind (Option Company.Kind) :=
  if n = 0 then .ok none
  else match Company.Kind.all.find? (kindNumber · == n) with
    | some k => .ok (some k)
    | none => .error ⟨n⟩

/-! ### Messages -/

/-- A company as it travels. -/
structure Record where
  id : String := ""
  name : String := ""
  description : String := ""
  employees : UInt32 := 0
  registered : Bool := false
  kind : Int32 := 0
  deriving DecidableEq, Repr

/-- A company of the register as it travels. -/
def Record.ofCompany (c : Company) : Record :=
  ⟨c.id.text, c.name, c.description, c.employees, c.registered, kindNumber c.kind⟩

/-- A question for a list of companies. An empty name, the number zero and an absent flag ask for
nothing in particular. -/
structure Query where
  name : String := ""
  kind : Int32 := 0
  registered : Option Bool := none
  limit : UInt32 := 0
  offset : UInt32 := 0
  deriving DecidableEq, Repr

/-- The calls of the contract. -/
inductive Call where
  | login (user password : String)
  | create (company : Option Record)
  | get (id : String)
  | update (company : Option Record)
  | delete (id : String)
  | list (query : Query)
  deriving DecidableEq, Repr

/-- The answers of the contract, to the calls in their order. -/
inductive Reply where
  | token (jwt : String)
  | created (id : String)
  | found (company : Record)
  | updated
  | deleted
  | listed (companies : List Record)
  deriving DecidableEq, Repr

/-! ### Writing -/

namespace Record

/-- The octets of a company. -/
def encode (r : Record) : Bytes :=
  Wire.textField 1 r.id ++ Wire.textField 2 r.name ++ Wire.textField 3 r.description ++
    Wire.u32Field 4 r.employees ++ Wire.boolField 5 r.registered ++ Wire.i32Field 6 r.kind

/-- The octets of a message whose only field is a company that may be absent. -/
def encodeOptional : Option Record → Bytes
  | none => []
  | some r => Wire.delimitedField 1 r.encode

/-- The octets of a message whose only field is a list of companies. -/
def encodeList (rs : List Record) : Bytes := rs.flatMap fun r => Wire.delimitedField 1 r.encode

end Record

/-- The octets of a question. -/
def Query.encode (q : Query) : Bytes :=
  Wire.textField 1 q.name ++ Wire.i32Field 2 q.kind ++ Wire.optionalBoolField 3 q.registered ++
    Wire.u32Field 4 q.limit ++ Wire.u32Field 5 q.offset

/-- The octets of an answer. -/
def Reply.encode : Reply → Bytes
  | .token jwt => Wire.textField 1 jwt
  | .created id => Wire.textField 1 id
  | .found r => Record.encodeOptional (some r)
  | .updated | .deleted => []
  | .listed rs => Record.encodeList rs

/-! ### Reading -/

/-- Lays the fields of a message over a value, in order. -/
def layFields (lay : α → Wire.Field → Option α) (level : Nat) (a : α) (s : Bytes) : Option α := do
  (← Wire.readFields? level s).foldlM lay a

namespace Record

/-- Lays a field over a company. -/
def lay (r : Record) (f : Wire.Field) : Option Record :=
  match f.number with
  | 1 => f.payload.asText?.map fun x => { r with id := x }
  | 2 => f.payload.asText?.map fun x => { r with name := x }
  | 3 => f.payload.asText?.map fun x => { r with description := x }
  | 4 => f.payload.asU32?.map fun x => { r with employees := x }
  | 5 => f.payload.asBool?.map fun x => { r with registered := x }
  | 6 => f.payload.asI32?.map fun x => { r with kind := x }
  | _ => some r

/-- Reads a company. -/
def decode? (s : Bytes) : Option Record := layFields lay 0 {} s

/-- Lays the only field of a message that holds a company over one that may be absent. -/
def layOptional (r : Option Record) (f : Wire.Field) : Option (Option Record) :=
  match f.number with
  | 1 => do some (some (← layFields lay 1 (r.getD {}) (← f.payload.asMessage?)))
  | _ => some r

/-- Reads a message whose only field is a company that may be absent. -/
def decodeOptional? (s : Bytes) : Option (Option Record) := layFields layOptional 0 none s

/-- Lays the only field of a message that holds companies over a list. -/
def layList (rs : List Record) (f : Wire.Field) : Option (List Record) :=
  match f.number with
  | 1 => do some (rs ++ [← layFields lay 1 {} (← f.payload.asMessage?)])
  | _ => some rs

/-- Reads a message whose only field is a list of companies. -/
def decodeList? (s : Bytes) : Option (List Record) := layFields layList 0 [] s

end Record

/-- Lays a field over a question. -/
def Query.lay (q : Query) (f : Wire.Field) : Option Query :=
  match f.number with
  | 1 => f.payload.asText?.map fun x => { q with name := x }
  | 2 => f.payload.asI32?.map fun x => { q with kind := x }
  | 3 => f.payload.asBool?.map fun x => { q with registered := some x }
  | 4 => f.payload.asU32?.map fun x => { q with limit := x }
  | 5 => f.payload.asU32?.map fun x => { q with offset := x }
  | _ => some q

/-- Reads a question. -/
def Query.decode? (s : Bytes) : Option Query := layFields Query.lay 0 {} s

/-- Lays a field over the two strings of a login. -/
def layLogin (a : String × String) (f : Wire.Field) : Option (String × String) :=
  match f.number with
  | 1 => f.payload.asText?.map fun x => (x, a.2)
  | 2 => f.payload.asText?.map fun x => (a.1, x)
  | _ => some a

/-- Lays a field over the only string of a message. -/
def layText (a : String) (f : Wire.Field) : Option String :=
  match f.number with
  | 1 => f.payload.asText?
  | _ => some a

/-- The methods of the contract. -/
inductive Method where
  | login
  | create
  | get
  | update
  | delete
  | list
  deriving DecidableEq, Repr

namespace Method

/-- Every method. -/
def all : List Method := [.login, .create, .get, .update, .delete, .list]

/-- The name of a method. -/
def name : Method → String
  | .login => "Login"
  | .create => "Create"
  | .get => "Get"
  | .update => "Update"
  | .delete => "Delete"
  | .list => "List"

/-- Reads the message of a call. -/
def readCall? (m : Method) (s : Bytes) : Option Call :=
  match m with
  | .login => (layFields layLogin 0 ("", "") s).map fun (user, password) => .login user password
  | .create => (Record.decodeOptional? s).map .create
  | .get => (layFields layText 0 "" s).map .get
  | .update => (Record.decodeOptional? s).map .update
  | .delete => (layFields layText 0 "" s).map .delete
  | .list => (Query.decode? s).map .list

end Method

end CompanyRegistry.Rpc
