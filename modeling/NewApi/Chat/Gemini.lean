import NewApi.Chat.Message

/-!
# Chat requests for Gemini

`CovertOpenAI2Gemini` makes every message a content: first its tool calls, then its parts.  A text
part is searched for images; once one was found, what is left at the end is not added any more.
Texts are lists of characters.
-/

namespace NewApi.Chat

open Go
open Files (FileSource Bytes)

/-! ## What is sent -/

inductive PartBody where
  | text (text : String)
  | functionCall (name : String) (arguments : Json)
  | functionResponse (name : String) (response : Json)
  | inlineData (mimeType data : String)

structure GeminiPart where
  body : PartBody
  thoughtSignature : Option String := none

structure GeminiChatContent where
  role : String
  parts : List GeminiPart

def thoughtSignatureBypassValue : String := "\"context_engineering_is_the_way_to_go\""

def geminiSupportedMimeTypes : List String :=
  ["application/pdf", "audio/mpeg", "audio/mp3", "audio/wav", "image/png", "image/jpeg",
    "image/jpg", "image/webp", "image/heic", "image/heif", "text/plain", "video/mov",
    "video/mpeg", "video/mp4", "video/mpg", "video/avi", "video/wmv", "video/mpegps", "video/flv"]

inductive DataError where
  /-- `base64 string is empty` -/
  | empty
  /-- `failed to decode base64 string` -/
  | base64
  /-- No decoder knows the image. -/
  | image
  deriving DecidableEq, Repr

inductive ConvertError where
  /-- `invalid arguments for function %s, args: %s` -/
  | invalidArguments (name args : String)
  /-- `decode markdown base64 image data failed: %s` -/
  | markdownImage (error : DataError)
  /-- `get file data from '%s' failed: %w` -/
  | fileData (source : FileSource)
  /-- `mime type is not supported by Gemini: '%s', url: '%s', supported types are: %v` -/
  | mimeType (mimeType : String) (source : FileSource)
  deriving DecidableEq, Repr

/-- Whether signatures are wanted, the format that the image decoders find, and the data and MIME
type of each file, which is loaded once. -/
structure GeminiEnv where
  attachThoughtSignature : Bool
  getImageConfig : Bytes → Option String
  getBase64Data : FileSource → Option (String × String)

/-! ## Data URLs -/

namespace GeminiEnv

variable (env : GeminiEnv)

/-- The format of an image and its data without what stands before the first comma. -/
def decodeBase64ImageData (base64String : List Char) : Except DataError (String × List Char) :=
  let base64String :=
    match index base64String [','] with
    | some idx => base64String.drop (idx + 1)
    | none => base64String
  if base64String = [] then .error .empty
  else
    match Base64.decode (utf8 (String.ofList base64String)) with
    | none => .error .base64
    | some decodedData =>
      match env.getImageConfig decodedData with
      | none => .error .image
      | some format => .ok (format, base64String)

def imageFileData (base64String : List Char) : Except DataError (String × String) :=
  (env.decodeBase64ImageData base64String).map fun p => ("image/" ++ p.1, String.ofList p.2)

def decodeBase64FileData (base64String : List Char) : Except DataError (String × String) :=
  match index base64String [','] with
  | none => env.imageFileData base64String
  | some idx =>
    let mimeType := base64String.take idx
    let base64String := base64String.drop (idx + 1)
    match index mimeType [';'] with
    | none => env.imageFileData base64String
    | some idx =>
      let mimeType := mimeType.take idx
      match index mimeType [':'] with
      | none => env.imageFileData base64String
      | some idx => .ok (String.ofList (mimeType.drop (idx + 1)), String.ofList base64String)

end GeminiEnv

/-! ## Text parts -/

structure NextImage where
  textBefore : List Char
  dataUrl : List Char
  rest : List Char
  deriving DecidableEq, Repr

def nextImage (text : List Char) : Option NextImage :=
  (index text ['!', '[']).bind fun startIdx =>
    (index (text.drop startIdx) "](data:".toList).bind fun bracketIdx =>
      let bracketIdx := bracketIdx + startIdx
      (index (text.drop (bracketIdx + 2)) [')']).map fun closeIdx =>
        let closeIdx := closeIdx + (bracketIdx + 2)
        ⟨text.take startIdx, (text.take closeIdx).drop (bracketIdx + 2), text.drop (closeIdx + 1)⟩

def addTextBefore (parts : List GeminiPart) (textBefore : List Char) : List GeminiPart :=
  if textBefore = [] then parts else parts ++ [⟨.text (String.ofList textBefore), none⟩]

def imgPart (shouldAttachThoughtSignature : Bool) (data : String × String) : GeminiPart :=
  ⟨.inlineData data.1 data.2,
    if shouldAttachThoughtSignature then some thoughtSignatureBypassValue else none⟩

namespace GeminiEnv

variable (env : GeminiEnv) (shouldAttachThoughtSignature : Bool)

def imageLoop : Nat → List Char → Bool → List GeminiPart →
    Except ConvertError (Bool × List GeminiPart)
  | 0, _, hasMarkdownImage, parts => pure (hasMarkdownImage, parts)
  | fuel + 1, text, hasMarkdownImage, parts =>
    match nextImage text with
    | none => pure (hasMarkdownImage, parts)
    | some image => do
      let parts := addTextBefore parts image.textBefore
      let data ← (env.decodeBase64FileData image.dataUrl).mapError .markdownImage
      imageLoop fuel image.rest true (parts ++ [imgPart shouldAttachThoughtSignature data])

/-- A text part.  Each round takes at least one character, so the length is fuel enough. -/
def addText (parts : List GeminiPart) (text : String) : Except ConvertError (List GeminiPart) :=
  if text = "" then pure parts
  else do
    let p ← env.imageLoop shouldAttachThoughtSignature (text.toList.length + 1) text.toList false
      parts
    pure (if p.1 then p.2 else p.2 ++ [⟨.text text, none⟩])

/-! ## Messages -/

/-- `unicode.ToLower`, as far as the result is an ASCII character: two others have one. -/
def toLowerChar (c : Char) : Char :=
  if c.toNat = 0x130 then 'i' else if c.toNat = 0x212a then 'k' else c.toLower

def toLower (s : String) : String := String.ofList (s.toList.map toLowerChar)

def addFile (parts : List GeminiPart) (part : MediaContent) :
    Except ConvertError (List GeminiPart) :=
  match part.toFileSource with
  | none => pure parts
  | some source =>
    match env.getBase64Data source with
    | none => throw (.fileData source)
    | some (base64Data, mimeType) =>
      if toLower mimeType ∈ geminiSupportedMimeTypes then
        pure (parts ++ [⟨.inlineData mimeType base64Data, none⟩])
      else throw (.mimeType mimeType source)

def addPart (parts : List GeminiPart) : MediaContent → Except ConvertError (List GeminiPart)
  | .text text => env.addText shouldAttachThoughtSignature parts text
  | .imageUrl url detail mimeType => env.addFile parts (.imageUrl url detail mimeType)
  | .inputAudio data format => env.addFile parts (.inputAudio data format)
  | .file fileName fileData fileId => env.addFile parts (.file fileName fileData fileId)
  | .videoUrl url => env.addFile parts (.videoUrl url)

end GeminiEnv

def hasFunctionCallContent (name : String) : Json → Bool
  | .object entries => trimSpace name ≠ "" || entries ≠ []
  | _ => trimSpace name ≠ ""

abbrev ToolCallIds := String → Option String

structure CallParts where
  parts : List GeminiPart
  signatureAttached : Bool
  toolCallIds : ToolCallIds

def addCall (shouldAttachThoughtSignature : Bool) (s : CallParts) (call : ToolCallRequest) :
    Except ConvertError CallParts :=
  match callArguments call.function.arguments with
  | none => throw (.invalidArguments call.function.name call.function.arguments)
  | some args =>
    let attach := shouldAttachThoughtSignature && !s.signatureAttached &&
      hasFunctionCallContent call.function.name args
    pure
      { parts := s.parts ++ [⟨.functionCall call.function.name args,
          if attach then some thoughtSignatureBypassValue else none⟩]
        signatureAttached := s.signatureAttached || attach
        toolCallIds := Function.update s.toolCallIds call.id (some call.function.name) }

def signFirstText : List GeminiPart → List GeminiPart
  | [] => []
  | part :: rest =>
    match part.body with
    | .text text =>
      if text ≠ "" then { part with thoughtSignature := some thoughtSignatureBypassValue } :: rest
      else part :: signFirstText rest
    | _ => part :: signFirstText rest

structure Conversion where
  contents : List GeminiChatContent
  toolCallIds : ToolCallIds
  systemContent : List String

/-- The answer of a tool: an object as it is, an array wrapped, any other text as content. -/
def functionResponse (content : String) : Json :=
  match unmarshalObject content with
  | some response => response
  | none =>
    match unmarshalArray content with
    | some items => .object [("result", items)]
    | none => .object [("content", .string content)]

def addToLast (contents : List GeminiChatContent) (part : GeminiPart) : List GeminiChatContent :=
  match contents.getLast? with
  | none => [⟨"user", [part]⟩]
  | some content =>
    if content.role = "model" then contents ++ [⟨"user", [part]⟩]
    else contents.dropLast ++ [{ content with parts := content.parts ++ [part] }]

def Conversion.addToolMessage (s : Conversion) (message : Message) : Conversion :=
  let name :=
    match message.name with
    | some name => name
    | none => (s.toolCallIds message.toolCallId).getD ""
  { s with
    contents :=
      addToLast s.contents ⟨.functionResponse name (functionResponse message.stringContent), none⟩ }

def isSystem (role : String) : Prop := role = "system" ∨ role = "developer"

def isTool (role : String) : Prop := role = "tool" ∨ role = "function"

instance (role : String) : Decidable (isSystem role) := inferInstanceAs (Decidable (_ ∨ _))

instance (role : String) : Decidable (isTool role) := inferInstanceAs (Decidable (_ ∨ _))

namespace GeminiEnv

variable (env : GeminiEnv)

def shouldAttachThoughtSignature (role : String) : Bool :=
  env.attachThoughtSignature && (role == "assistant" || role == "model")

/-- The parts of a message: its calls, its content, and the signature if no call has it. -/
def messageParts (toolCallIds : ToolCallIds) (message : Message) :
    Except ConvertError CallParts := do
  let should := env.shouldAttachThoughtSignature message.role
  let s ← message.parseToolCalls.foldlM (addCall should) ⟨[], false, toolCallIds⟩
  let parts ← message.parseContent.foldlM (env.addPart should) s.parts
  pure { s with parts := if should && !s.signatureAttached then signFirstText parts else parts }

def addChatMessage (s : Conversion) (message : Message) : Except ConvertError Conversion := do
  let made ← env.messageParts s.toolCallIds message
  let role := if message.role = "assistant" then "model" else message.role
  pure
    { s with
      toolCallIds := made.toolCallIds
      contents := if made.parts = [] then s.contents else s.contents ++ [⟨role, made.parts⟩] }

def addMessage (s : Conversion) (message : Message) : Except ConvertError Conversion :=
  if isSystem message.role then
    pure { s with systemContent := s.systemContent ++ [message.stringContent] }
  else if isTool message.role then pure (s.addToolMessage message)
  else env.addChatMessage s message

end GeminiEnv

structure GeminiChatRequest where
  contents : List GeminiChatContent
  systemInstructions : Option GeminiChatContent

/-- The messages of a request; the settings that the function copies besides are left out. -/
def GeminiEnv.covertOpenAI2Gemini (env : GeminiEnv) (messages : List Message) :
    Except ConvertError GeminiChatRequest := do
  let s ← messages.foldlM env.addMessage ⟨[], fun _ => none, []⟩
  pure
    { contents := s.contents
      systemInstructions :=
        if s.systemContent = [] then none
        else some ⟨"", [⟨.text (join s.systemContent '\n'), none⟩]⟩ }

end NewApi.Chat
