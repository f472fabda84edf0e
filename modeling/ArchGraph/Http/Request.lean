import ArchGraph.Http.Address
import ArchGraph.Schema.Decoder

/-!
Requests and responses, and reading the body and the query of a request.
-/

namespace ArchGraph.Http

structure Request where
  method : String
  path : String
  query : List (String × String)
  headers : List (String × String)
  body : Option String
  deriving DecidableEq, Repr

structure Response where
  status : Int
  body : Json
  /-- The mark the request was sent with, if it had one. -/
  traceId : Option String
  deriving Repr

namespace Request

/-- The value of a header, whose name may be in any case. -/
def header? (r : Request) (name : String) : Option String :=
  (r.headers.find? (fun h => Text.lowerCase h.1 == name)).map (·.2)

def traceId? (r : Request) : Option String := Text.given? (r.header? "x-trace-id")

/-- Whether a content type stands for JSON: `application/json`, or a type built on it. -/
def isJsonType (contentType : String) : Bool :=
  let kind := Text.lower (Text.trim (Text.before ';' contentType.toList))
  match Text.splitWhere (· == '/') kind with
  | [main, sub] =>
    main == "application".toList && (sub == "json".toList || "+json".toList.isSuffixOf sub)
  | _ => false

def hasJsonBody (r : Request) : Bool :=
  match Text.given? (r.header? "content-type") with
  | none => true
  | some contentType => isJsonType contentType

/-- A text without the mark of byte order it may begin with. -/
def withoutMark : List Char → List Char
  | c :: rest => if c.toNat == 0xFEFF then rest else c :: rest
  | [] => []

/-- Read the body as a record. -/
def readBody {α : Type} (r : Request) (d : Entries → Checked α) : Checked α :=
  Checked.under (.field "body") <|
    match Text.given? r.body with
    | none => .refuse .missing
    | some text =>
      if r.hasJsonBody then
        match Json.read (withoutMark text.toList) with
        | .error offset => (Checked.refuse .brokenJson).under (.index offset)
        | .ok .null => .refuse .missing
        | .ok j => Decoder.record d j
      else .refuse .notRecord

/-- Read a yes or no from the query. -/
def readFlag (r : Request) (name : String) (fallback : Bool) : Checked Bool :=
  match r.query.reverse.lookup name with
  | none => .ok fallback
  | some value =>
    ((Decoder.booleanOfText value).under (.field name)).under (.field "query")

end Request

namespace Response

def json (status : Int) (body : Json) : Response := ⟨status, body, none⟩

def detail (status : Int) (text : String) : Response := json status (.obj [("detail", .str text)])

/-- What is wrong with a request. -/
def faults (found : List Fault) : Response :=
  json 422 (.obj [("detail", .arr (found.map (·.toJson)))])

end Response

end ArchGraph.Http
