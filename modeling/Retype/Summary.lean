import Retype.Files
import Retype.Text.Json

/-! What a run did with each resource that was asked for. -/

namespace Retype
open Retype.Text (Json)

/-- A resource whose typed file was written. -/
structure Migrated where
  name : String
  output : String
  /-- Look-ups that are left to be completed by hand. -/
  unresolved : List String
  deriving DecidableEq, Repr

/-- A resource without output, under the name that was asked for. -/
structure Skipped where
  name : String
  reason : String
  deriving DecidableEq, Repr

structure Summary where
  migrated : List Migrated := []
  skipped : List Skipped := []
  deriving DecidableEq, Repr

namespace Summary

def addMigrated (s : Summary) (m : Migrated) : Summary := { s with migrated := s.migrated ++ [m] }

def addSkipped (s : Summary) (k : Skipped) : Summary := { s with skipped := s.skipped ++ [k] }

def incomplete (s : Summary) : List Migrated := s.migrated.filter (!·.unresolved.isEmpty)

def toJson (s : Summary) : Json :=
  .record [
    ("migrated", .list (s.migrated.map fun m => .record
      [("name", .text m.name), ("output", .text m.output), ("unresolved", .list (m.unresolved.map .text))])),
    ("skipped", .list (s.skipped.map fun k => .record [("name", .text k.name), ("reason", .text k.reason)]))]

def report (s : Summary) : String := s.toJson.pretty 0

def write (s : Summary) (files : Files) (path : String) : Except FileError Files := files.write path s.report

end Summary
end Retype
