import Barycenter.Conf.Ast

/-!
# Drafts of configuration trees

The renderer builds its tree from values and nodes that check themselves.  A
draft is the tree before these checks; the places at which the renderer itself
gives up are marked in it.
-/

namespace Barycenter

namespace Conf

inductive DraftValue where
  | lit (text : String)
  | num (value : Nat)
  | variable (name : String)
  | regex (pattern : String)
  deriving DecidableEq, Repr

inductive DraftNode where
  | directive (name : String) (args : List DraftValue)
  | block (name : String) (args : List DraftValue) (children : List DraftNode)
  | entry (key value : DraftValue)
  | lua (name body : String)
  /-- Rendering ends with this message. -/
  | thrown (message : String)
  deriving Repr

end Conf

end Barycenter
