import CompanyRegistry.Rpc.Server

/-!
# Calls over HTTP

A call is a request whose path names the method and whose body is one frame: an octet that says whether
it is compressed, four octets of length, and the message. The answer's body is such a frame, its status a
trailer; a call that fails has an empty body and its status among the headers.
-/

namespace CompanyRegistry.Rpc

/-- The path of the service; a method's name follows it. -/
def servicePath : String := "/companyhub.v1.CompanyService/"

/-- The method that a path names. -/
def Method.ofPath? (path : String) : Option Method :=
  Method.all.find? fun m => servicePath ++ m.name == path

/-- A message in its frame. -/
def frame (message : Bytes) : Bytes := 0 :: Bytes.ofNatBE 4 message.length ++ message

/-- The message of the first frame of a body. -/
def unframe (body : Bytes) : Except Status Bytes :=
  match body with
  | [] => .error (.internal "Missing request message.")
  | flag :: rest =>
    if flag = 1 then
      .error (.internal ("protocol error: received message with compressed-flag but no grpc-encoding " ++
        "was specified"))
    else if flag ≠ 0 then
      .error (.internal ("protocol error: received message with invalid compression flag: " ++
        toString flag.toNat ++ " (valid flags are 0 and 1) while sending request"))
    else
      let length := Bytes.bigEndian (rest.take 4)
      let message := (rest.drop 4).take length
      if rest.length < 4 ∨ message.length < length then
        .error (.internal "Unexpected EOF decoding stream.")
      else .ok message

/-- The type of the bodies. -/
def bodyType : Bytes := Bytes.utf8 "application/grpc"

/-- Whether an octet stands for itself in the message of a status. -/
def isPlainOctet (b : UInt8) : Bool :=
  0x21 ≤ b && b < 0x7F && !"\"#%<>?`\x7b\x7d".toList.contains (Char.ofNat b.toNat)

/-- The message of a status as a header: other octets as a percent sign and two digits. -/
def encodeMessage (s : String) : Bytes :=
  (Bytes.utf8 s).flatMap fun b =>
    if isPlainOctet b then [b]
    else Bytes.utf8 (String.ofList ('%' :: (Bytes.hexChars [b]).map Char.toUpper))

/-- The number of a code as a header. -/
def codeHeader (c : Code) : Bytes := Bytes.utf8 (toString c.number)

/-- The response of a call that fails. -/
def failedResponse (s : Status) : Http.Response :=
  let headers := [("content-type", bodyType)] ++
    (if s.message = "" then [] else [("grpc-message", encodeMessage s.message)]) ++
    [("grpc-status", codeHeader s.code)]
  { status := 200, headers := ⟨headers⟩ }

/-- The response of a call that is answered. -/
def answeredResponse (r : Reply) : Http.Response :=
  { status := 200
    headers := ⟨[("content-type", bodyType)]⟩
    body := frame r.encode
    trailers := ⟨[("grpc-status", codeHeader .ok)]⟩ }

/-- The response to a call of a method that does not exist. -/
def unknownMethod : Http.Response := failedResponse ⟨.unimplemented, ""⟩

/-- The call that a request makes. -/
def readCall (m : Method) (body : Bytes) : Except Status Call := do
  match m.readCall? (← unframe body) with
  | some call => .ok call
  | none => .error (.internal "failed to decode Protobuf message")

/-- Answers a request that makes a call. -/
def exchange (m : Moment) (q : Http.Request) (s : Server) : Http.Response × Server :=
  match Method.ofPath? q.path with
  | none => (unknownMethod, s)
  | some method =>
    match readCall method q.body with
    | .error e => (failedResponse e, s)
    | .ok call =>
      let (answer, s) := s.call m (q.headers.first? "authorization") call
      (match answer with
        | .ok r => answeredResponse r
        | .error e => failedResponse e, s)

end CompanyRegistry.Rpc
