import MikesCrawler.Guarantees.Progress
import MikesCrawler.Guarantees.Fetches
import MikesCrawler.Guarantees.Reach
import MikesCrawler.Guarantees.Confinement
import MikesCrawler.Guarantees.Failures
import MikesCrawler.Guarantees.Registry
import MikesCrawler.Guarantees.Isolation
import MikesCrawler.Machine.Scan
import MikesCrawler.Model.Markup
import MikesCrawler.Model.PlainMarkup
import MikesCrawler.Refine.Links
import MikesCrawler.Guarantees.Ghosts
import MikesCrawler.Guarantees.Links
import MikesCrawler.Guarantees.References
import MikesCrawler.Guarantees.Termination
import MikesCrawler.Machine.Completion
import MikesCrawler.Model.Environment
import MikesCrawler.Guarantees.Completion
import MikesCrawler.Guarantees.Order
import MikesCrawler.Guarantees.Driving
import MikesCrawler.Guarantees.Status
import MikesCrawler.Guarantees.Results
import MikesCrawler.Guarantees.Client
import MikesCrawler.Guarantees.Web
import MikesCrawler.Wire.Json
import MikesCrawler.Model.Serializers
import MikesCrawler.Model.Api
import MikesCrawler.Refine.Serializers
import MikesCrawler.Refine.Server
import MikesCrawler.Guarantees.Requests
import MikesCrawler.Guarantees.Service
import MikesCrawler.Guarantees.Errors
import MikesCrawler.Guarantees.Liveness
import MikesCrawler.Guarantees.Excluded
