import ApiContract.GoClient.Declaration
import ApiContract.GoClient.File

namespace ApiContract.GoClient

/-- The file so far and what was told on the way. -/
structure Draft where
  file : File Declaration
  log : List LogLine := []

/-- A step that adds to a draft and may fail. What was added before a fault stays. -/
abbrev Emit (α : Type) := Draft → Except Fault α × Draft

namespace Emit

variable {α β : Type}

def pure (a : α) : Emit α := fun d => (.ok a, d)

def bind (m : Emit α) (f : α → Emit β) : Emit β := fun d =>
  match m d with
  | (.ok a, d) => f a d
  | (.error fault, d) => (.error fault, d)

instance : Monad Emit where
  pure := pure
  bind := bind

def fail (cause : Cause) : Emit α := fun d => (.error ⟨[], cause⟩, d)

/-- A fault of the step lies within a part of the document. -/
def within (layer : Layer) (m : Emit α) : Emit α := fun d =>
  match m d with
  | (.ok a, d) => (.ok a, d)
  | (.error fault, d) => (.error (fault.within layer), d)

def tell (lines : List LogLine) : Emit Unit := fun d =>
  (.ok (), { d with log := d.log ++ lines })

def addImport (path : String) : Emit Unit := fun d =>
  (.ok (), { d with file := d.file.addImport path })

def addImports : List String → Emit Unit
  | [] => pure ()
  | path :: rest => do
    addImport path
    addImports rest

/-- Fails if a name is taken. -/
def requireFree (name : String) : Emit Unit := fun d =>
  if d.file.declares name then (.error ⟨[], .declaredTwice name⟩, d) else (.ok (), d)

def declare (name : String) (declaration : Declaration) : Emit Unit := fun d =>
  match d.file.push name declaration with
  | .ok file => (.ok (), { d with file, log := d.log ++ [declared name] })
  | .error fault => (.error fault, d)

def ofResolved (r : Except ResolveFault α) : Emit α :=
  match r with
  | .ok a => pure a
  | .error fault => fail (.unresolved fault)

end Emit

end ApiContract.GoClient
