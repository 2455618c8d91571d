import Forum.Http.Multipart
import Forum.Remote
import Forum.Text.Percent
namespace Forum.Http.Wire

structure Head where
  words : List (List Char)
  headers : List (String × List UInt8)

def maxHeaders : Nat := 100

def headEnd? (bytes : ByteArray) : Option Nat := (Multipart.find? Multipart.headersEnd bytes 0).map (· + 4)

def Head.ofBytes? (bytes : List UInt8) : Option Head := do
  let line := bytes.takeWhile (· ≠ 0x0D)
  let headers ← Multipart.Headers.read maxHeaders (← Multipart.Headers.afterLine (bytes.drop line.length))
  return ⟨Text.splitAll ' ' (← Header.text? line), headers⟩

def Head.text? (h : Head) (name : String) : Option (List Char) := (h.headers.lookup name).bind Header.text?

def Head.bodySize? (h : Head) : Option Nat := (h.text? "content-length").bind Text.natural?

def Head.isChunked (h : Head) : Bool := (h.text? "transfer-encoding").any fun cs => cs.map Char.toLower = "chunked".toList

def hexadecimal? (value : Nat) : List UInt8 → Option Nat
  | [] => some value
  | b :: rest => (Text.hexDigit? b).bind fun digit => hexadecimal? (value * 16 + digit.toNat) rest

-- The data of chunks. Each has its size in front, on a line of its own, and a line end behind; the
-- chunk without data is the last.
def unchunk? (bytes : List UInt8) : Option (List UInt8) :=
  let line := bytes.takeWhile (· ≠ 0x0D)
  let size := if line = [] then none else hexadecimal? 0 (line.takeWhile (· ≠ 0x3B))
  match size with
  | none => none
  | some 0 => some []
  | some (size + 1) =>
    if bytes.length < line.length + size + 5 then none
    else
      let rest := unchunk? (bytes.drop (line.length + size + 5))
      rest.map (((bytes.drop (line.length + 2)).take (size + 1)) ++ ·)
termination_by bytes.length
decreasing_by
  rename_i enough
  rw [List.length_drop]
  omega

def request? (h : Head) (body : ByteArray) : Option Request :=
  match h.words with
  | [method, target, version] =>
    if version = "HTTP/1.1".toList ∨ version = "HTTP/1.0".toList then
      some { method := .ofList method, target := .ofText (.ofList target), headers := h.headers, body }
    else none
  | _ => none

-- The reply in all bytes of a connection. A body that is cut short is no reply.
def reply? (bytes : ByteArray) : Option Remote.Reply := do
  let stop ← headEnd? bytes
  let head ← Head.ofBytes? (bytes.extract 0 stop).toList
  let rest := (bytes.extract stop bytes.size).toList
  let status ← Text.natural? (← head.words[1]?)
  if head.isChunked then return ⟨status, ← unchunk? rest⟩
  else
    match head.bodySize? with
    | none => return ⟨status, rest⟩
    | some size => if rest.length < size then none else return ⟨status, rest.take size⟩

def message (lines : List String) (data : ByteArray) : ByteArray :=
  (String.join ((lines ++ [""]).map (· ++ "\r\n"))).toUTF8 ++ data

def ask (method : String) (address : Remote.Address) (data : ByteArray) : ByteArray :=
  message [method ++ " " ++ address.path ++ " HTTP/1.1", "host: " ++ address.host ++ ":" ++ toString address.port,
    "accept: */*", "content-length: " ++ toString data.size, "connection: close"] data

def Body.content : Body → String
  | .empty => ""
  | .json value => value.render
  | .text value => value

def respond (r : Response) : ByteArray :=
  let data := (Body.content r.body).toUTF8
  let sized := match r.body with
    | .empty => r.contentType.isNone && r.status ≠ 204
    | _ => true
  message
    (["HTTP/1.1 " ++ Remote.statusText r.status] ++
      (r.contentType.toList.map ("content-type: " ++ ·)) ++ (r.setCookies.map ("set-cookie: " ++ ·)) ++
      (if r.allow = [] then [] else ["allow: " ++ ",".intercalate r.allow]) ++
      (if sized then ["content-length: " ++ toString data.size] else []) ++ ["connection: close"]) data

end Forum.Http.Wire
