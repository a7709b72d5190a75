import NewApi.Files.Source
import NewApi.Go.Json

/-!
# Messages of a chat request

The content of a message is any JSON value, in practice a text or an array of parts; after a
conversion it is a list of media parts, kept also as the result of an earlier parse.
-/

namespace NewApi.Chat

open Go

/-! ## Values of a request -/

def field (entries : List (String × Json)) (key : String) : Option Json :=
  (entries.reverse.find? fun entry => entry.1 == key).map Prod.snd

def asString : Option Json → Option String
  | some (.string s) => some s
  | _ => none

def asObject : Option Json → Option (List (String × Json))
  | some (.object entries) => some entries
  | _ => none

structure FunctionRequest where
  name : String
  arguments : String
  deriving DecidableEq, Repr

structure ToolCallRequest where
  id : String
  function : FunctionRequest
  deriving DecidableEq, Repr

inductive MediaContent where
  | text (text : String)
  | imageUrl (url detail mimeType : String)
  | inputAudio (data format : String)
  | file (fileName fileData fileId : String)
  | videoUrl (url : String)
  deriving DecidableEq, Repr

inductive Content where
  | json (value : Json)
  /-- What `SetMediaContent` stores. -/
  | media (parts : List MediaContent)

structure Message where
  role : String
  content : Content
  name : Option String := none
  /-- What `ParseToolCalls` reads; `none` if the field is missing. -/
  toolCalls : Option (List ToolCallRequest) := none
  toolCallId : String := ""
  parsedContent : List MediaContent := []

/-! ## Reading the content -/

def Content.isNil : Content → Bool
  | .json .null => true
  | _ => false

def itemText : Json → String
  | .object entries =>
    if asString (field entries "type") = some "text" then
      (asString (field entries "text")).getD ""
    else ""
  | _ => ""

def Content.string : Content → String
  | .json (.string s) => s
  | .json (.array items) => String.join (items.map itemText)
  | _ => ""

def parseImageUrl : Option Json → MediaContent
  | some (.string url) => .imageUrl url "high" ""
  | some (.object v) =>
    .imageUrl ((asString (field v "url")).getD "") ((asString (field v "detail")).getD "high") ""
  | _ => .imageUrl "" "high" ""

def parseInputAudio (audioData : List (String × Json)) : Option MediaContent :=
  match asString (field audioData "data"), asString (field audioData "format") with
  | some data, some format => some (.inputAudio data format)
  | _, _ => none

def parseFile (fileData : List (String × Json)) : Option MediaContent :=
  match asString (field fileData "file_id") with
  | some fileId => some (.file "" "" fileId)
  | none =>
    match asString (field fileData "filename"), asString (field fileData "file_data") with
    | some fileName, some data => some (.file fileName data "")
    | _, _ => none

/-- One item of an array, for `ParseContent`; items it does not know are skipped. -/
def parseItem : Json → Option MediaContent
  | .object item =>
    match asString (field item "type") with
    | some "text" => (asString (field item "text")).map .text
    | some "image_url" => some (parseImageUrl (field item "image_url"))
    | some "input_audio" => (asObject (field item "input_audio")).bind parseInputAudio
    | some "file" => (asObject (field item "file")).bind parseFile
    | some "video_url" => (asString (field item "video_url")).map .videoUrl
    | _ => none
  | _ => none

namespace Message

variable (m : Message)

def stringContent : String := m.content.string

def parseContent : List MediaContent :=
  if m.content.isNil then []
  else if m.parsedContent ≠ [] then m.parsedContent
  else
    match m.content with
    | .json (.string s) => [.text s]
    | .json (.array items) => items.filterMap parseItem
    | _ => []

def parseToolCalls : List ToolCallRequest := m.toolCalls.getD []

end Message

/-! ## Files in messages -/

open Files (FileSource Bytes)

def utf8 (s : String) : Bytes := s.toUTF8.toList

def newFileSourceFromData (data mimeType : String) : FileSource :=
  if hasPrefix data "http://" ∨ hasPrefix data "https://" then .url (utf8 data)
  else .base64 (utf8 data) (utf8 mimeType)

/-- The file behind a part; a part without data has none. -/
def MediaContent.toFileSource : MediaContent → Option FileSource
  | .imageUrl url _ mimeType =>
    if url = "" then none else some (newFileSourceFromData url mimeType)
  | .inputAudio data format =>
    if data = "" then none
    else some (newFileSourceFromData data (if format = "" then "" else "audio/" ++ format))
  | .file _ fileData _ =>
    if fileData = "" then none else some (newFileSourceFromData fileData "")
  | .videoUrl url => if url = "" then none else some (newFileSourceFromData url "")
  | .text _ => none

/-! ## Arguments and results of functions -/

def unmarshalObject (s : String) : Option Json :=
  match Json.parse s with
  | some .null => some .null
  | some (.object entries) => some (.object entries)
  | _ => none

def unmarshalArray (s : String) : Option Json :=
  match Json.parse s with
  | some .null => some .null
  | some (.array items) => some (.array items)
  | _ => none

def callArguments (arguments : String) : Option Json :=
  if arguments = "" then some (.object []) else unmarshalObject arguments

end NewApi.Chat
