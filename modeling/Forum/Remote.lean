import Forum.Error
import Forum.Text.Numeral
import Forum.Text.Split
namespace Forum.Remote

structure Reply where
  status : Nat
  body : List UInt8 := []
deriving DecidableEq, Repr

def IsSuccess (status : Nat) : Prop := 200 ≤ status ∧ status < 300

instance (status : Nat) : Decidable (IsSuccess status) := inferInstanceAs (Decidable (_ ∧ _))

def reasons : List (Nat × String) :=
  [(100, "Continue"), (101, "Switching Protocols"), (102, "Processing"), (103, "Early Hints"),
   (200, "OK"), (201, "Created"), (202, "Accepted"), (203, "Non Authoritative Information"), (204, "No Content"),
   (205, "Reset Content"), (206, "Partial Content"), (207, "Multi-Status"), (208, "Already Reported"), (226, "IM Used"),
   (300, "Multiple Choices"), (301, "Moved Permanently"), (302, "Found"), (303, "See Other"), (304, "Not Modified"),
   (305, "Use Proxy"), (307, "Temporary Redirect"), (308, "Permanent Redirect"),
   (400, "Bad Request"), (401, "Unauthorized"), (402, "Payment Required"), (403, "Forbidden"), (404, "Not Found"),
   (405, "Method Not Allowed"), (406, "Not Acceptable"), (407, "Proxy Authentication Required"),
   (408, "Request Timeout"), (409, "Conflict"), (410, "Gone"), (411, "Length Required"), (412, "Precondition Failed"),
   (413, "Payload Too Large"), (414, "URI Too Long"), (415, "Unsupported Media Type"), (416, "Range Not Satisfiable"),
   (417, "Expectation Failed"), (418, "I'm a teapot"), (421, "Misdirected Request"), (422, "Unprocessable Entity"),
   (423, "Locked"), (424, "Failed Dependency"), (425, "Too Early"), (426, "Upgrade Required"),
   (428, "Precondition Required"), (429, "Too Many Requests"), (431, "Request Header Fields Too Large"),
   (451, "Unavailable For Legal Reasons"),
   (500, "Internal Server Error"), (501, "Not Implemented"), (502, "Bad Gateway"), (503, "Service Unavailable"),
   (504, "Gateway Timeout"), (505, "HTTP Version Not Supported"), (506, "Variant Also Negotiates"),
   (507, "Insufficient Storage"), (508, "Loop Detected"), (510, "Not Extended"), (511, "Network Authentication Required")]

def statusText (status : Nat) : String :=
  toString status ++ " " ++ (reasons.lookup status).getD "<unknown status code>"

def trimRoot (root : String) : String :=
  .ofList (root.toList.reverse.dropWhile (· = '/')).reverse

structure Address where
  host : String
  port : Nat
  path : String
deriving DecidableEq, Repr

def Address.ofUrl? (url : String) : Option Address := do
  let scheme := "http://".toList
  if scheme.isPrefixOf url.toList then
    let rest := url.toList.drop scheme.length
    let authority := rest.takeWhile fun c => c ≠ '/' ∧ c ≠ '?'
    let path := match rest.drop authority.length with
      | '/' :: more => '/' :: more
      | more => '/' :: more
    let (host, port) ← match Text.splitLast? ':' authority with
      | none => some (authority, 80)
      | some (host, port) => (Text.unsigned? 65535 port).map (host, ·)
    return ⟨.ofList host, port, .ofList path⟩
  else none

end Forum.Remote
