import Reckoner.Desk.Basic

namespace Reckoner.Desk

inductive Order where
  | answer (text : String)
  | answerAll (texts : List String)
  | clear
  /-- Reads the counts. They stand in the desk, so that there is nothing to do. -/
  | stats
deriving DecidableEq

def Order.texts : Order → List String
  | .answer text => [text]
  | .answerAll texts => texts
  | .clear | .stats => []

def perform (d : Desk) : Order → Answers
  | .answer text => d.answerAll [text]
  | .answerAll texts => d.answerAll texts
  | .clear => ⟨[], d.clear, []⟩
  | .stats => ⟨[], d, []⟩

def run (d : Desk) : List Order → Answers
  | [] => ⟨[], d, []⟩
  | order :: orders =>
    let first := d.perform order
    let others := first.desk.run orders
    ⟨first.results ++ others.results, others.desk, first.events ++ others.events⟩

theorem run_append (d : Desk) (os ps : List Order) :
    d.run (os ++ ps) =
      ⟨(d.run os).results ++ ((d.run os).desk.run ps).results, ((d.run os).desk.run ps).desk,
        (d.run os).events ++ ((d.run os).desk.run ps).events⟩ := by
  induction os generalizing d with
  | nil => rfl
  | cons order os ih => simp only [List.cons_append, run, ih, List.append_assoc]

end Reckoner.Desk
