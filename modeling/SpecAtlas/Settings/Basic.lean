import SpecAtlas.Toml.Decoder
import SpecAtlas.Toml.Reader

/-!
The settings of a project: defaults for the arguments of a command line, one section for each
command and one for the address of a server.
-/

namespace SpecAtlas

inductive Format where
  | text
  | table
  | json
deriving DecidableEq, Repr, Inhabited

namespace Format

def all : List Format := [.text, .table, .json]

def name : Format → String
  | .text => "text"
  | .table => "table"
  | .json => "json"

def ofName? (name : String) : Option Format := all.find? (·.name == name)

@[simp] theorem ofName?_name (f : Format) : ofName? f.name = some f := by
  cases f <;> decide

end Format

namespace Settings

open Toml

structure Scan where
  paths : List String := []
  globs : List String := []
  excludeGlobs : List String := []
  hideCallbacks : Option Bool := none
  hideIncludes : Option Bool := none
  useIndex : Option Bool := none
  indexPath : Option String := none
  format : Option Format := none
  server : Option String := none
  noServer : Option Bool := none
deriving Repr

structure Index where
  paths : List String := []
  globs : List String := []
  excludeGlobs : List String := []
  indexPath : Option String := none
  server : Option String := none
  noServer : Option Bool := none
deriving Repr

structure IndexInfo where
  paths : List String := []
  indexPath : Option String := none
  format : Option Format := none
  server : Option String := none
  noServer : Option Bool := none
deriving Repr

structure Serve where
  addr : Option String := none
deriving Repr

structure Http where
  serverUrl : Option String := none
deriving Repr

def Scan.decoder : Decoder Scan := fun v => do
  let [paths, globs, excludeGlobs, hideCallbacks, hideIncludes, useIndex, indexPath, format, server,
    noServer] ← slots? [["paths"], ["globs"], ["exclude_globs", "exclude"], ["hide_callbacks"],
      ["hide_includes"], ["use_index"], ["index_path"], ["format"], ["server"], ["no_server"]] v
    | none
  return {
    paths := ← listed .string paths
    globs := ← listed .string globs
    excludeGlobs := ← listed .string excludeGlobs
    hideCallbacks := ← optional .bool hideCallbacks
    hideIncludes := ← optional .bool hideIncludes
    useIndex := ← optional .bool useIndex
    indexPath := ← optional .string indexPath
    format := ← optional (.choice Format.ofName?) format
    server := ← optional .string server
    noServer := ← optional .bool noServer }

def Index.decoder : Decoder Index := fun v => do
  let [paths, globs, excludeGlobs, indexPath, server, noServer] ←
    slots? [["paths"], ["globs"], ["exclude_globs", "exclude"], ["index_path"], ["server"],
      ["no_server"]] v
    | none
  return {
    paths := ← listed .string paths
    globs := ← listed .string globs
    excludeGlobs := ← listed .string excludeGlobs
    indexPath := ← optional .string indexPath
    server := ← optional .string server
    noServer := ← optional .bool noServer }

def IndexInfo.decoder : Decoder IndexInfo := fun v => do
  let [paths, indexPath, format, server, noServer] ←
    slots? [["paths"], ["index_path"], ["format"], ["server"], ["no_server"]] v
    | none
  return {
    paths := ← listed .string paths
    indexPath := ← optional .string indexPath
    format := ← optional (.choice Format.ofName?) format
    server := ← optional .string server
    noServer := ← optional .bool noServer }

def Serve.decoder : Decoder Serve := fun v => do
  let [addr] ← slots? [["addr"]] v | none
  return { addr := ← optional .string addr }

def Http.decoder : Decoder Http := fun v => do
  let [serverUrl] ← slots? [["server_url"]] v | none
  return { serverUrl := ← optional .string serverUrl }

end Settings

structure Settings where
  scan : Option Settings.Scan := none
  index : Option Settings.Index := none
  indexInfo : Option Settings.IndexInfo := none
  serve : Option Settings.Serve := none
  http : Option Settings.Http := none
deriving Repr

namespace Settings

open Toml

def decoder : Decoder Settings := fun v => do
  let [scan, index, indexInfo, serve, http] ←
    slots? [["scan"], ["index"], ["index_info"], ["serve"], ["http"]] v
    | none
  return {
    scan := ← optional Scan.decoder scan
    index := ← optional Index.decoder index
    indexInfo := ← optional IndexInfo.decoder indexInfo
    serve := ← optional Serve.decoder serve
    http := ← optional Http.decoder http }

def ofText? (text : String) : Option Settings := do
  decoder (.table .header (← Toml.parse? text))

def directory : String := ".specscan"

def fileName : String := directory ++ "/config.toml"

end Settings

end SpecAtlas
