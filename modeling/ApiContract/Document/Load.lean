import ApiContract.Document.Reading
import ApiContract.Source.JsonText
import ApiContract.Source.YamlText

namespace ApiContract

inductive Format where
  | json
  | yaml
deriving Repr, DecidableEq

/-- Why a text is not a document. -/
inductive LoadFault where
  | undecodable (fault : DecodeFault)
  | unsupportedVersion (version : String)
deriving Repr, DecidableEq

def LoadFault.message : LoadFault → String
  | undecodable fault => "invalid spec document: " ++ fault.message
  | unsupportedVersion version => "unsupported Swagger version: " ++ version

namespace Document

def supportedVersion : String := "2.0"

def checkVersion (d : Document) : Except LoadFault Document :=
  if d.swagger = supportedVersion then .ok d else .error (.unsupportedVersion d.swagger)

def decode (format : Format) (text : String) : Except DecodeFault Document :=
  match format with
  | .json => Source.readJson .whole (Document.read .json) text
  | .yaml => Source.readYaml (Document.read .yaml) text

def ofText (format : Format) (text : String) : Except LoadFault Document :=
  match decode format text with
  | .ok d => d.checkVersion
  | .error fault => .error (.undecodable fault)

end Document

end ApiContract
