import Criteria.Http.RuleSite
import Criteria.Proofs.Normalization
import Criteria.Proofs.RuleSet
import Criteria.Settings.LogFilter
import Criteria.Settings.Service
import Criteria.Proofs.Recognition
import Criteria.Proofs.StoreLog
import Criteria.Proofs.Strictness
import Criteria.Proofs.SiteRun
import Criteria.Proofs.StoredRules
import Criteria.Proofs.Parentheses
import Criteria.Proofs.SiteAnswer
import Criteria.Proofs.Envelope
import Criteria.Proofs.ToldNumbers
import Criteria.Proofs.SiteFrame
import Criteria.Proofs.Admission
import Criteria.Proofs.WrittenText
import Criteria.Proofs.Alike
import Criteria.Proofs.MissingData
import Criteria.Proofs.MetricHistory
import Criteria.Proofs.NamedRules
import Criteria.Proofs.ReachableStore
import Criteria.Proofs.Untimed
import Criteria.Proofs.WrittenNumber
import Criteria.Proofs.JsonRange
import Criteria.Proofs.TreeShape
import Criteria.Proofs.TreeJson
import Criteria.Proofs.TreeStatistics
import Criteria.Proofs.RuleChain
import Criteria.Proofs.DepthLimit
import Criteria.Proofs.Offender
import Criteria.Proofs.Scanning
import Criteria.Proofs.RuleTrace
import Criteria.Proofs.Bracketing
import Criteria.Proofs.Leaning
import Criteria.Proofs.ReadFields
import Criteria.Proofs.Enclosure
import Criteria.Proofs.NearestDouble
import Criteria.Proofs.WordNumeral
import Criteria.Proofs.ComparisonOrder
import Criteria.Proofs.IntegerComparison
import Criteria.Proofs.NodeOrder
import Criteria.Proofs.RequestIdentity
import Criteria.Proofs.AdmittedOrigins
import Criteria.Proofs.LoneWildcard
import Criteria.Proofs.GroupEnd
import Criteria.Proofs.IndexedReading
import Criteria.Proofs.RequestCount
import Criteria.Proofs.SettingLayers
import Criteria.Proofs.RuleTable
