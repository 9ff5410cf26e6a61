/-
# Front matter

A page may begin with a block of YAML between lines that begin with `---`. Only
its title is of interest, and only if the block is one well-formed mapping. The
title is the text of a scalar, whatever its tag; null is no title. Other values
are passed over without being looked at.

Key definitions: `Page.splitFrontMatter`, `Page.frontMatterTitle?`.
-/
import SitePlan.Text.Basic
import SitePlan.Yaml.Value.Read

namespace SitePlan
namespace Page

open Yaml (Event Document)

/-- The parts before and after the first line end that three hyphens follow. -/
def splitAtFence : List Char → Option (List Char × List Char)
  | [] => none
  | c :: cs =>
    match c :: cs with
    | '\n' :: '-' :: '-' :: '-' :: body => some ([], body)
    | _ => (splitAtFence cs).map fun (yaml, body) => (c :: yaml, body)

/-- The front matter, if there is any, and the body of a page. -/
def splitFrontMatter (content : List Char) : Option (List Char) × List Char :=
  let opened := match Text.dropStart? "---\n".toList content with
    | some rest => some rest
    | none => Text.dropStart? "---\r\n".toList content
  match opened.bind splitAtFence with
  | some (yaml, body) => (some yaml, body)
  | none => (none, content)

/-- The events after one node; `depth` counts the collections that are open. -/
def skipNode : Nat → List Event → Option (List Event)
  | _, [] => none
  | depth, .sequenceStart _ :: rest => skipNode (depth + 1) rest
  | depth, .mappingStart _ :: rest => skipNode (depth + 1) rest
  | 0, .sequenceEnd :: _ => none
  | 0, .mappingEnd :: _ => none
  | 1, .sequenceEnd :: rest => some rest
  | 1, .mappingEnd :: rest => some rest
  | depth + 2, .sequenceEnd :: rest => skipNode (depth + 1) rest
  | depth + 2, .mappingEnd :: rest => skipNode (depth + 1) rest
  | 0, _ :: rest => some rest
  | depth + 1, _ :: rest => skipNode (depth + 1) rest

/-- A node that a scalar or a reference to one stands for. -/
def scalarAt (d : Document) : List Event → Option Event
  | .reference anchor :: _ =>
    match d.target anchor with
    | .scalar tag text style :: _ => some (.scalar tag text style)
    | _ => none
  | .scalar tag text style :: _ => some (.scalar tag text style)
  | _ => none

/-- Whether a plain scalar with the given tag is null; `none` if the tag says so
and the spelling does not. -/
def isNull? (tag : Option Yaml.Tag) (text : List Char) : Option Bool :=
  match tag with
  | none => some (text.isEmpty || Yaml.isNullWord text)
  | some tag =>
    if tag = .global (Yaml.Value.coreTag "null") then
      (if Yaml.isNullWord text then some true else none)
    else some false

/-- The text that a scalar gives as title: `some none` for null, `none` for
what can be no title. -/
def titleOf (d : Document) (events : List Event) : Option (Option (List Char)) := do
  match ← scalarAt d events with
  | .scalar tag text .plain =>
    let null ← isNull? tag text
    some (if null then none else some text)
  | .scalar _ text _ => some (some text)
  | _ => none

/-- The title among the entries of a mapping, which must not hold two; the first
argument bounds their number. -/
def titleIn (d : Document) :
    Nat → Option (Option (List Char)) → List Event → Option (Option (List Char))
  | 0, _, _ => none
  | fuel + 1, found, events =>
    match events with
    | .mappingEnd :: _ => some (found.getD none)
    | _ => do
      match ← scalarAt d events with
      | .scalar _ key _ =>
        let afterKey := events.tail
        let rest ← skipNode 0 afterKey
        if key = "title".toList then
          if found.isSome then none
          else
            let title ← titleOf d afterKey
            titleIn d fuel (some title) rest
        else titleIn d fuel found rest
      | _ => none

/-- The title of a document that is a mapping. -/
def documentTitle? (d : Document) : Option (List Char) :=
  match d.complete, d.events with
  | true, .mappingStart _ :: rest => (titleIn d (rest.length + 1) none rest).join
  | _, _ => none

/-- The title that front matter gives, if it gives one that is not blank. -/
def frontMatterTitle? (yaml : List Char) : Option (List Char) := do
  let text := Text.trimChars yaml
  if text = [] then none
  else
    let title ← documentTitle? (Document.ofTokens (Yaml.tokens text))
    let title := Text.trimChars title
    if title = [] then none else some title

end Page
end SitePlan
