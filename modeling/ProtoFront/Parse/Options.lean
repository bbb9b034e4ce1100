import ProtoFront.Parse.Recovery

/-!
# Options and lists

An option is a name, an equals sign and a value, as a statement of its own or as an item of a list
between square brackets. The same brackets hold the lists of values inside text messages, and both
lists go from item to item in the same way (`ParseState.listAfterItem`).

An option in a list fails without skipping anything: the list finds its next separator itself.
-/

namespace ProtoFront

/-- The goal of one item. -/
def ListKind.item : ListKind → Goal
  | options => .listOption
  | values => .value

/-- What may follow an item of a list. -/
def isListSeparator (kind : TokenKind) : Bool := kind == .comma || kind == .closer .square

namespace ParseState

/-! ## Option statements -/

/-- The word `option`, then a name. -/
def optionStatement (entry : Pending) (s : ParseState) : ParseState :=
  (s.take.resume entry .optionAfterName).pushGoal .optionName

/-- The equals sign of an option, then its value. -/
def optionAfterName (entry : Pending) (s : ParseState) : ParseState :=
  if entry.failed then s.failStatement entry .option
  else s.expect .equals (failStatement entry .option) fun s =>
    (s.resume entry .optionEnd).pushGoal .value

/-- The semicolon of a statement, unless a part of the statement has failed. -/
def statementEnd (kind : DeclarationKind) (entry : Pending) (s : ParseState) : ParseState :=
  if entry.failed then s.failStatement entry kind else s.endStatement entry kind

/-! ## Lists -/

/-- The opening bracket of a list of options, then its first item. -/
def optionList (entry : Pending) (s : ParseState) : ParseState :=
  (s.take.resume entry (.listAfterItem .options false)).pushGoal .listOption

/-- The opening bracket of a list of values, then its first item or its end. -/
def textList (entry : Pending) (s : ParseState) : ParseState :=
  let opened := s.take
  if opened.kind = .closer .square then
    opened.take.close entry ListKind.values.tag?
  else (opened.resume entry (.listAfterItem .values false)).pushGoal .value

/-- Another item, or the end of the list. A list without its closing bracket has failed. -/
def listGoOn (list : ListKind) (failed : Bool) (entry : Pending) (s : ParseState) : ParseState :=
  match s.kind with
  | .comma =>
    (s.take.resume { entry with failed := false } (.listAfterItem list failed)).pushGoal list.item
  | .closer .square => s.take.close { entry with failed } list.tag?
  | _ => s.close entry.broken list.tag?

/-- Finds the separator behind an item. -/
def listAfterItem (list : ListKind) (failed : Bool) (entry : Pending) (s : ParseState) :
    ParseState :=
  if entry.failed then (s.skipTo isListSeparator).listGoOn list true entry
  else if isListSeparator s.kind then s.listGoOn list failed entry
  else
    match (s.report [.token .comma, .token (.closer .square)]).recoverTo isListSeparator with
    | (stuck, .gaveUp) => stuck.close entry.broken list.tag?
    | (found, _) => found.listGoOn list true entry

/-! ## Options in a list -/

/-- The name of an option in a list. -/
def listOption (entry : Pending) (s : ParseState) : ParseState :=
  (s.resume entry .listOptionAfterName).pushGoal .optionName

/-- Closes an option in a list. -/
def listOptionEnd (entry : Pending) (s : ParseState) : ParseState :=
  s.close entry (some (.declaration .option))

/-- The equals sign of an option in a list, then its value. -/
def listOptionAfterName (entry : Pending) (s : ParseState) : ParseState :=
  if entry.failed then s.listOptionEnd entry
  else s.expect .equals (listOptionEnd entry.broken) fun s =>
    (s.resume entry .listOptionEnd).pushGoal .value

end ParseState

end ProtoFront
