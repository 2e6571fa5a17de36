import KvServer.Bytes
import KvServer.Command.Basic
import KvServer.Command.Execute
import KvServer.Connection.Error
import KvServer.Connection.Serve
import KvServer.Connection.Stats
import KvServer.Expiry.Cycle
import KvServer.Expiry.Passive
import KvServer.Expiry.Policy
import KvServer.Expiry.Schedule
import KvServer.Main
import KvServer.Numeral.Binary64
import KvServer.Numeral.Decimal
import KvServer.Numeral.Scientific
import KvServer.Numeral.Shortest
import KvServer.Numeral.Word
import KvServer.Options.Arguments
import KvServer.Options.Basic
import KvServer.Proofs.Command.Accounts
import KvServer.Proofs.Command.Apply
import KvServer.Proofs.Command.History
import KvServer.Proofs.Command.Language
import KvServer.Proofs.Command.NoLostUpdate
import KvServer.Proofs.Command.Party
import KvServer.Proofs.Command.Refusal
import KvServer.Proofs.Command.Scope
import KvServer.Proofs.Command.Separation
import KvServer.Proofs.Connection.Pipelining
import KvServer.Proofs.Connection.Sending
import KvServer.Proofs.Connection.Transcript
import KvServer.Proofs.Expiry.Cycle
import KvServer.Proofs.Expiry.Deadline
import KvServer.Proofs.Expiry.Eager
import KvServer.Proofs.Expiry.Invisible
import KvServer.Proofs.Expiry.Lifetime
import KvServer.Proofs.Expiry.Passive
import KvServer.Proofs.Expiry.Revival
import KvServer.Proofs.Expiry.Schedule
import KvServer.Proofs.Expiry.Stopping
import KvServer.Proofs.Expiry.Sweep
import KvServer.Proofs.Numeral.Binary64
import KvServer.Proofs.Numeral.Canonical
import KvServer.Proofs.Numeral.Codec
import KvServer.Proofs.Numeral.Decimal
import KvServer.Proofs.Options.Accepted
import KvServer.Proofs.Reply.Framing
import KvServer.Proofs.Request.Broken
import KvServer.Proofs.Request.Cost
import KvServer.Proofs.Request.Delivery
import KvServer.Proofs.Request.Grammar
import KvServer.Proofs.Request.Line
import KvServer.Proofs.Request.Pipeline
import KvServer.Proofs.Request.Rounds
import KvServer.Proofs.Request.Scan
import KvServer.Proofs.Request.Settled
import KvServer.Proofs.Request.Truncated
import KvServer.Proofs.Server.Lifecycle
import KvServer.Proofs.Store.Access
import KvServer.Proofs.Store.Contents
import KvServer.Proofs.Store.FiniteMap
import KvServer.Proofs.Store.Increment
import KvServer.Proofs.Store.Ledger
import KvServer.Proofs.Store.World
import KvServer.Proofs.Transport.Contiguous
import KvServer.Reply
import KvServer.Request.Error
import KvServer.Request.Reader
import KvServer.Server
import KvServer.Store.Basic
import KvServer.Store.Script
import KvServer.Tag
import KvServer.Text.NonGraphic
import KvServer.Text.Quoted
import KvServer.Text.Utf8
import KvServer.Time.Clock
import KvServer.Time.Instant
import KvServer.Transport.Failure
import KvServer.Transport.Source
