/-
FreshTag/Database/Script.lean

A database that answers by a script and keeps, in order, what it was asked.
Whether a request is refused may depend on the requests before it, so a script
can fail any of them.
-/
import FreshTag.Database.Basic

namespace FreshTag.Database

/-- What a database is asked. -/
inductive Request where
  | tables
  | triggers (schema : String)
  | run (command : Command)
  | listen (channel : String)
  | listenAgain (channel : String)

/-- The statement of a request. -/
def Request.text : Request → String
  | .tables => Catalog.tablesQuery
  | .triggers _ => installedTriggers
  | .run command => command.text
  | .listen channel => "LISTEN " ++ Catalog.doubleQuoted channel
  | .listenAgain channel => "LISTEN " ++ Catalog.doubleQuoted channel ++ ";"

/-- The answers of a database, laid down beforehand. -/
structure Script where
  rows : List Catalog.Row := []
  triggers : String → List Trigger := fun _ => []
  /-- the cause for which a request is refused, given the requests before it -/
  refuses : List Request → Request → Option String := fun _ _ => none
  deriving Inhabited

/-- Keeps a request and answers it, unless it is refused. -/
def Script.answer {α : Type} (s : Script) (request : Request) (answer : α) :
    StateM (List Request) (Except String α) :=
  fun asked =>
    let result := match s.refuses asked request with
      | some cause => .error cause
      | none => .ok answer
    (result, asked ++ [request])

/-- The database that answers by a script. -/
def scripted (s : Script) : Database (StateM (List Request)) where
  tables := s.answer .tables s.rows
  triggers schema := s.answer (.triggers schema) (s.triggers schema)
  run command := s.answer (.run command) ()
  listen channel := s.answer (.listen channel) ()
  listenAgain channel := s.answer (.listenAgain channel) ()

end FreshTag.Database
