import SortedTable.Session

namespace SortedTable

namespace Session

inductive Action where
  | put (now : Int64) (key : Key) (column : String) (value : Bytes)
  | putStatic (now : Int64) (key : Key) (column : String) (value : Bytes)
  | delete (now : Int64) (key : Key)
  | flush (medium : Medium)

/-- The reading of the clock that an action takes. -/
def Action.reading? : Action → Option Int64
  | .put now _ _ _ | .putStatic now _ _ _ | .delete now _ => some now
  | .flush _ => none

/-- Takes an action; only a flush can fail. -/
def perform (session : Session) (store : Store) : Action → Except SessionError (Session × Store)
  | .put now key column value => .ok (session.put now key column value, store)
  | .putStatic now key column value => .ok (session.putStatic now key column value, store)
  | .delete now key => .ok (session.delete now key, store)
  | .flush medium =>
      match session.flush medium store with
      | (.error error, _, _) => .error error
      | (.ok _, session, store) => .ok (session, store)

/-- Takes actions in order until one fails. -/
def performAll (session : Session) (store : Store) :
    List Action → Except SessionError (Session × Store)
  | [] => .ok (session, store)
  | action :: rest => do
      let (session, store) ← session.perform store action
      session.performAll store rest

/-- Takes an action and goes on, also behind a flush that failed. Only an overflow ends the session. -/
def undergo (session : Session) (store : Store) : Action → Except Overflow Session × Store
  | .put now key column value => (.ok (session.put now key column value), store)
  | .putStatic now key column value => (.ok (session.putStatic now key column value), store)
  | .delete now key => (.ok (session.delete now key), store)
  | .flush medium =>
      match session.flush medium store with
      | (.error (.overflow cause), _, store) => (.error cause, store)
      | (_, session, store) => (.ok session, store)

/-- Takes actions in order until the session ends. -/
def undergoAll (session : Session) (store : Store) : List Action → Except Overflow Session × Store
  | [] => (.ok session, store)
  | action :: rest =>
      match session.undergo store action with
      | (.error cause, store) => (.error cause, store)
      | (.ok session, store) => session.undergoAll store rest

end Session

end SortedTable
