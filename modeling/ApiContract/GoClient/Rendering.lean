import ApiContract.GoClient.Declaration
import ApiContract.GoClient.Lexical

namespace ApiContract.GoClient

/-- Fills up to a width. The width counts bytes and the text is counted in characters, so text
beyond ASCII is filled with more blanks than it takes to align it. -/
def pad (width : Nat) (s : String) : String :=
  s ++ String.ofList (List.replicate (width - s.length) ' ')

def widest (ss : List String) : Nat := (ss.map String.utf8ByteSize).foldl max 0

/-- The lines of a comment, or none for a description that is missing or empty. -/
def commentLines (description : Option String) : List String :=
  match description with
  | some text => if text = "" then [] else [comment text]
  | none => []

namespace Field

def tags (f : Field) : String :=
  "`json:\"" ++ f.jsonTag ++ "\" tfsdk:\"" ++ f.property ++ "\"`"

def line (nameWidth typeWidth : Nat) (f : Field) : String :=
  "\t" ++ pad nameWidth f.name ++ " " ++ pad typeWidth f.type.text ++ " " ++ f.tags

end Field

def StructDeclaration.lines (s : StructDeclaration) : List String :=
  let nameWidth := widest (s.fields.map Field.name)
  let typeWidth := widest (s.fields.map (·.type.text))
  commentLines s.description ++ ["type " ++ s.name ++ " struct \x7b"] ++
    (if s.embedsError then ["\t*ErrorResponse"] else []) ++
    s.fields.map (Field.line nameWidth typeWidth) ++ ["\x7d"]

def NamedDeclaration.lines (n : NamedDeclaration) : List String :=
  commentLines n.description ++
    ["type " ++ n.name ++ (if n.isAlias then " = " else " ") ++ n.target.text]

def UrlPart.text : UrlPart → String
  | literal s => stringLiteral s
  | argument identifier conversion => conversion.apply identifier

namespace QueryItem

/-- The value of the argument behind the query item. -/
def operand (q : QueryItem) : String :=
  if q.optional then "*" ++ q.identifier else q.identifier

def setter (q : QueryItem) : String :=
  "q.Set(" ++ stringLiteral q.key ++ ", " ++ q.conversion.apply q.operand ++ ")"

def lines (q : QueryItem) : List String :=
  if q.optional then
    ["\tif " ++ q.identifier ++ " != nil \x7b", "\t\t" ++ q.setter, "\t\x7d"]
  else ["\t" ++ q.setter]

end QueryItem

def Arm.lines (a : Arm) : List String :=
  ("\tcase " ++ toString a.code ++ ":") ::
    if a.success then
      ["\t\t" ++ a.identifier ++ " = new(" ++ a.typeName ++ ")",
        "\t\terr = json.NewDecoder(res.Body).Decode(" ++ a.identifier ++ ")"]
    else
      ["\t\t" ++ a.identifier ++ " := new(" ++ a.typeName ++ ")",
        "\t\terr = json.NewDecoder(res.Body).Decode(" ++ a.identifier ++ ")",
        "\t\tif err == nil \x7b",
        "\t\t\terr = " ++ a.identifier,
        "\t\t\x7d"]

namespace MethodDeclaration

def urlText (m : MethodDeclaration) : String :=
  if m.url.isEmpty then "\"\"" else " + ".intercalate (m.url.map UrlPart.text)

def argumentsText (m : MethodDeclaration) : String :=
  ", ".intercalate
    ("ctx context.Context" :: m.arguments.map fun a => a.identifier ++ " " ++ a.type.text)

def resultsText (m : MethodDeclaration) : String :=
  ", ".intercalate
    (m.results.map (fun a => a.identifier ++ " *" ++ a.typeName) ++ ["err error"])

/-- What a return on an error lists. -/
def errorReturn (m : MethodDeclaration) : String :=
  ", ".intercalate (m.results.map (fun _ => "nil") ++ ["err"])

/-- What the last return lists. -/
def finalReturn (m : MethodDeclaration) : String :=
  ", ".intercalate (m.results.map Arm.identifier ++ ["err"])

def deprecationLines (m : MethodDeclaration) : List String :=
  if m.deprecated then
    (if (commentLines m.description).isEmpty then [] else ["//"]) ++
      ["// Deprecated: " ++ m.name ++ " is deprecated by the API."]
  else []

def failLines (m : MethodDeclaration) : List String :=
  ["\tif err != nil \x7b", "\t\treturn " ++ m.errorReturn, "\t\x7d"]

def queryLines (m : MethodDeclaration) : List String :=
  if m.query.isEmpty then []
  else ["\tq := u.Query()"] ++ m.query.flatMap QueryItem.lines ++ ["\tu.RawQuery = q.Encode()"]

def requestLine (m : MethodDeclaration) (body : String) : String :=
  "\tr, err := http.NewRequestWithContext(ctx, " ++ stringLiteral m.method.name ++
    ", u.String(), " ++ body ++ ")"

def requestLines (m : MethodDeclaration) : List String :=
  if m.hasBody then
    ["\tvar body io.Reader",
      "\tif req != nil \x7b",
      "\t\tbuf := new(bytes.Buffer)",
      "\t\tif err := json.NewEncoder(buf).Encode(req); err != nil \x7b",
      "\t\t\treturn " ++ m.errorReturn,
      "\t\t\x7d",
      "\t\tbody = buf",
      "\t\x7d",
      m.requestLine "body"]
  else [m.requestLine "nil"]

/-- What is done with a response of any other status code. -/
def otherwiseLines : List String :=
  ["\tdefault:",
    "\t\tvar errBody *ErrorResponse",
    "\t\t_ = json.NewDecoder(res.Body).Decode(&errBody)",
    "\t\tif errBody != nil \x7b",
    "\t\t\terr = errBody",
    "\t\t\x7d else \x7b",
    "\t\t\terr = fmt.Errorf(\"unexpected status code %d\", res.StatusCode)",
    "\t\t\x7d",
    "\t\x7d"]

def lines (m : MethodDeclaration) : List String :=
  commentLines m.description ++ m.deprecationLines ++
    ["func (cl *Client) " ++ m.name ++ "(" ++ m.argumentsText ++ ") (" ++ m.resultsText ++ ") \x7b",
      "\tu, err := cl.baseURL.Parse(" ++ m.urlText ++ ")"] ++
    m.failLines ++ m.queryLines ++ m.requestLines ++ m.failLines ++
    ["\tr.Header.Set(\"Content-Type\", \"application/json\")",
      "\tr.Header.Set(\"Accept\", \"application/json\")",
      "",
      "\tres, err := cl.httpClient.Do(r)"] ++
    m.failLines ++
    ["\tdefer res.Body.Close()", "", "\tswitch res.StatusCode \x7b"] ++
    m.arms.flatMap Arm.lines ++ otherwiseLines ++
    ["\tif errors.Is(err, io.EOF) \x7b", "\t\terr = nil", "\t\x7d",
      "\treturn " ++ m.finalReturn, "\x7d"]

end MethodDeclaration

def clientLines (title baseUrl : String) : List String :=
  [if title = "" then "// Client calls the API." else "// Client calls the " ++ title ++ " API.",
    "type Client struct \x7b",
    "\thttpClient *http.Client",
    "\tbaseURL    *url.URL",
    "\x7d",
    "",
    "// NewClient returns a Client that sends requests through httpClient, or",
    "// http.DefaultClient when httpClient is nil. An empty baseURL means",
    "// " ++ stringLiteral baseUrl ++ ".",
    "func NewClient(httpClient *http.Client, baseURL string) (*Client, error) \x7b",
    "\tif baseURL == \"\" \x7b",
    "\t\tbaseURL = " ++ stringLiteral baseUrl,
    "\t\x7d",
    "\tu, err := url.Parse(baseURL)",
    "\tif err != nil \x7b",
    "\t\treturn nil, err",
    "\t\x7d",
    "\tif !strings.HasSuffix(u.Path, \"/\") \x7b",
    "\t\tu.Path += \"/\"",
    "\t\x7d",
    "\tif httpClient == nil \x7b",
    "\t\thttpClient = http.DefaultClient",
    "\t\x7d",
    "\treturn &Client\x7bhttpClient: httpClient, baseURL: u\x7d, nil",
    "\x7d"]

def errorResponseLines : List String :=
  ["// ErrorResponse is the body the API returns with a failure status.",
    "type ErrorResponse struct \x7b",
    "\tCode    string `json:\"code\" tfsdk:\"code\"`",
    "\tMessage string `json:\"message\" tfsdk:\"message\"`",
    "\x7d",
    "",
    "func (e *ErrorResponse) Error() string \x7b",
    "\treturn fmt.Sprintf(\"error %s: %s\", e.Code, e.Message)",
    "\x7d"]

namespace Declaration

def lines : Declaration → List String
  | client title baseUrl => clientLines title baseUrl
  | errorResponse => errorResponseLines
  | struct s => s.lines
  | named n => n.lines
  | method m => m.lines

def text (d : Declaration) : String := "\n".intercalate d.lines

end Declaration

end ApiContract.GoClient
