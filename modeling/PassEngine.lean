import PassEngine.FileTree
import PassEngine.Journal
import PassEngine.Script
import PassEngine.Settings.Resolution
import PassEngine.Proofs.Agenda
import PassEngine.Proofs.Agenda.Conservation
import PassEngine.Proofs.Text.Words
import PassEngine.Proofs.Text.Bytes
import PassEngine.Proofs.TagSet.Canonical
import PassEngine.Proofs.Text.Spelling
import PassEngine.Proofs.Settings.Override
import PassEngine.Proofs.Toml.Scalars
import PassEngine.Proofs.Toml.PlainDocument
import PassEngine.Proofs.Settings.Document
import PassEngine.Proofs.Settings.Resolution
import PassEngine.Proofs.Rule.Scope
import PassEngine.Proofs.Rule.Eligibility
import PassEngine.Proofs.Rule.OneByOne
import PassEngine.Proofs.Rule.Predicates
import PassEngine.Proofs.Rule.Building
import PassEngine.Proofs.Rule.Rewriting
import PassEngine.Proofs.Run.Step
import PassEngine.Proofs.Run.Chronicle
import PassEngine.Proofs.Run.Signals
import PassEngine.Proofs.Run.Budget
import PassEngine.Proofs.Run.Limit
import PassEngine.Proofs.Attempt
import PassEngine.Proofs.Program.Tour
import PassEngine.Proofs.Program.Worklist
import PassEngine.Proofs.Run.Discipline
import PassEngine.Proofs.FirstOccurrence
import PassEngine.Proofs.Run.Nominations
import PassEngine.Proofs.Run.Accounts
import PassEngine.Proofs.Program.Attempts
import PassEngine.Proofs.Program.Failure
import PassEngine.Proofs.Attempt.Imports
import PassEngine.Proofs.Script.Imports
import PassEngine.Proofs.Program.Imports
import PassEngine.Proofs.Program.History
import PassEngine.Proofs.Run.Isolation
import PassEngine.Proofs.Attempt.Return
import PassEngine.Proofs.Attempt.Discoveries
import PassEngine.Proofs.Program.Rounds
import PassEngine.Proofs.Program.Generations
import PassEngine.Proofs.Attempt.Confinement
import PassEngine.Proofs.Script.Names
import PassEngine.Proofs.Program.Termination
import PassEngine.Proofs.Program.Runaway
import PassEngine.Proofs.Program.Bookkeeping
import PassEngine.Proofs.Program.Indifference
import PassEngine.Proofs.Run.Muting
import PassEngine.Proofs.Run.Pruning
import PassEngine.Proofs.Attempt.Independence
import PassEngine.Proofs.Program.Order
import PassEngine.Proofs.Program.Identity
import PassEngine.Proofs.Custody
