import CodeChunks.Extraction.Details
import CodeChunks.Extraction.Imports
import CodeChunks.Extraction.Naming

/-!
Extraction: the chunk roots of a tree are its topmost nodes of a chunkable kind, in document
order, and each yields one chunk.
-/

namespace CodeChunks.Extraction

open Syntax

def weight (sites : List Site) : Nat := Node.sizes (sites.map Site.node)

/-- Works through a list of sites that grows by the children of each site that is no chunk; a chunk
is not looked into. -/
def chunkRoots (l : Language) : List Site → List (Site × Kind)
  | [] => []
  | site :: rest =>
    match l.classify site.node.kind with
    | some kind => (site, kind) :: chunkRoots l rest
    | none => chunkRoots l (site.node.sites ++ rest)
termination_by sites => weight sites
decreasing_by
  · have := site.node.size_pos
    simp only [weight, List.map_cons, Node.sizes]; omega
  · simp only [weight, List.map_cons, List.map_append, Node.map_node_sites, Node.sizes,
      Node.sizes_append, site.node.size_eq]; omega

def anonymous : String := "anonymous"

def namingEvent? (l : Language) (source filePath : String) (root : Site × Kind) : Option Event :=
  let (site, kind) := root
  if (describe l source site.node).name.isNone && kind.nameRule != .expression then
    some (.unnamed filePath site.node.kind (site.node.line))
  else none

def rawChunk (l : Language) (withDetails : Bool) (source : String) (site : Site) : RawChunk :=
  let n := site.node
  let d := describe l source n
  let (lineStart, lineEnd) := n.lineSpan
  { type := d.type
    name := d.name.getD anonymous
    content := n.text source
    start := n.start
    stop := n.stop
    lineStart
    lineEnd
    details :=
      if withDetails then l.details?.bind fun details => details site d.inner source else none }

structure Findings where
  raw : List RawChunk
  imports : List Import
  events : List Event

def extract (l : Language) (withDetails : Bool) (source filePath : String) (root : Node) :
    Findings :=
  let roots := chunkRoots l [⟨root, []⟩]
  { raw := roots.map fun (site, _) => rawChunk l withDetails source site
    imports := imports l source root
    events := roots.filterMap (namingEvent? l source filePath) ++ importEvents l source root }

end CodeChunks.Extraction
