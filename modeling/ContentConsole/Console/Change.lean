import ContentConsole.Console.Basic
import ContentConsole.Json.Reader

set_option autoImplicit false
set_option relaxedAutoImplicit false

/-! The commands that change one entity on the server: renaming it, setting
a property and deleting it. -/
namespace ContentConsole.Console

variable {σ : Type}

/-- Renames an entity. It counts as renamed if every change was carried out. -/
def rename (c : Console) (w : World σ) (id name : String) : Outcome σ :=
  match c.client with
  | .error e => w.failed e
  | .ok client =>
    match resolve (c.connect w client false) id none with
    | (.error e, s) => s.failed e
    | (.ok entity, s) =>
      match c.withKeys s with
      | .error e => s.failed e
      | .ok s =>
        let (drawn, _, s) := s.draw entity none none false false
        match s.rename drawn.handle name with
        | (.error e, s) => s.failed e.message
        | (.ok (committed, report), s) =>
          let result :=
            match committed with
            | none => c.display.warning "Nothing to commit"
            | some name =>
              if report.isClean then c.display.success s!"Renamed {entity.id} to '{name}'"
              else c.display.error s!"Rename of {entity.id} was not saved"
          s.printed (c.failures report ++ [result])

/-- The value that a word stands for: the JSON it holds, or else the word itself. -/
def valueOf (word : String) : Json :=
  match Json.read word with
  | .ok value => value
  | .error _ => .str word

def set (c : Console) (w : World σ) (id key word : String) : Outcome σ :=
  match c.client with
  | .error e => w.failed e
  | .ok client =>
    match c.withKeys (c.connect w client false) with
    | .error e => w.failed e
    | .ok s =>
      let value := valueOf word
      match s.ask (.set id key value) with
      | (.error e, s) => s.failed e.message
      | (.ok (), s) => s.printed [c.display.success s!"Set {id}.{key} = {value.compact}"]

def delete (c : Console) (w : World σ) (id : String) (isAgreed : Bool) : Outcome σ :=
  match c.client with
  | .error e => w.failed e
  | .ok client =>
    match (c.connect w client (isAgreed || w.agrees)).ask (.children id none) with
    | (.error e, s) => s.failed e.message
    | (.ok children, s) =>
      match resolve s id none with
      | (.error e, s) => s.failed e
      | (.ok entity, s) =>
        match c.withKeys s with
        | .error e => s.failed e
        | .ok s =>
          let (drawn, _, s) := s.draw { entity with children } none none false false
          if !((s.outline.node? drawn.handle).any Node.isDeletable) then
            s.printed [c.display.warning s!"{entity.id} still has children; remove them first"]
          else
            match s.delete drawn.handle with
            | (.error e, s) => s.failed e.message
            | (.ok true, s) => s.printed [c.display.success s!"Deleted {entity.id}"]
            | (.ok false, s) => s.printed [c.display.warning "Nothing deleted"]

end ContentConsole.Console
