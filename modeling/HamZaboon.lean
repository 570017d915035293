import HamZaboon.Reviews.Pruning
import HamZaboon.Reviews.Counters
import HamZaboon.Cost.Deletion
import HamZaboon.Quota.Midnight
import HamZaboon.Quota.Ask
import HamZaboon.Quota.RateWindow
import HamZaboon.Session.FrozenPrompt
import HamZaboon.Session.GradeOnce
import HamZaboon.Session.Rollback
import HamZaboon.Session.RoundTrip
import HamZaboon.Session.Summary
import HamZaboon.Session.Gradable
import HamZaboon.Users.Streak
import HamZaboon.Words.References
import HamZaboon.Words.Histories
import HamZaboon.Words.GradeOrder
import HamZaboon.Messages.Spans
import HamZaboon.Ai.FirstSuccess
import HamZaboon.Words.DueTexts
import HamZaboon.Presets.References
import HamZaboon.Presets.Placement
import HamZaboon.Egress.Proving
import HamZaboon.Egress.Leases
import HamZaboon.Egress.ExitCache
import HamZaboon.Egress.CleanCache
import HamZaboon.Egress.CooldownRuns
import HamZaboon.Egress.CycleLaw
import HamZaboon.Egress.PoolOrder
import HamZaboon.Cards.Validation
import HamZaboon.Cards.Repair
import HamZaboon.Cards.Aliases
import HamZaboon.Cards.Batch
import HamZaboon.Tts.Eviction
import HamZaboon.Words.MostActive
import HamZaboon.Senses.Partition
import HamZaboon.Presets.Active
import HamZaboon.Ai.Slots
import HamZaboon.Store.MaintenanceGate
import HamZaboon.Store.Restore
import HamZaboon.Tts.Speaking
import HamZaboon.Tts.SpeakLock
import HamZaboon.Messages.Awaiting
import HamZaboon.Messages.RichText
import HamZaboon.Messages.Phonetic
import HamZaboon.Messages.Nesting
import HamZaboon.Messages.Html
import HamZaboon.Messages.RichEdits
import HamZaboon.Linking.Gates
import HamZaboon.Linking.LinkRows
import HamZaboon.Linking.Overlap
import HamZaboon.Lexicon.Sampling
import HamZaboon.Lexicon.KaikkiIndex
import HamZaboon.Precard.Accounting
import HamZaboon.Precard.QueueRuns
import HamZaboon.Precard.QueueLatest
import HamZaboon.Precard.Fanout
import HamZaboon.Precard.AnchorVerdict
import HamZaboon.Precard.AnchorOrder
import HamZaboon.Precard.ReviewLaw
import HamZaboon.Precard.TopicSalvage
import HamZaboon.Precard.WindowCover
import HamZaboon.Precard.JudgeResume
import HamZaboon.Precard.DropLog
import HamZaboon.Words.QueryCap
import HamZaboon.Precard.PromptRegistry
import HamZaboon.Precard.StageAudit
import HamZaboon.Precard.Selector
import HamZaboon.Precard.Enrich
import HamZaboon.Precard.VectorsLaw
import HamZaboon.Webui.Batches
import HamZaboon.Webui.SheetBlock
import HamZaboon.Webui.Approve
import HamZaboon.Precard.Transport
import HamZaboon.Precard.CefrCache
import HamZaboon.Precard.BatchRun
import HamZaboon.Precard.ProviderManifest
import HamZaboon.Precard.Replies
import HamZaboon.Lexicon.PhraseJudge
import HamZaboon.Lexicon.ReservoirFill
import HamZaboon.Factory.Claims
import HamZaboon.Factory.GlossIdentity
import HamZaboon.Factory.Lineage
import HamZaboon.Factory.Migration
