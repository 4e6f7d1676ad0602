import BuildHooks.Json.Indented

/-!
Sample request bodies, one for each event that is there from the start. Every sample is accepted by
its event.
-/

namespace BuildHooks.Event.Sample

/-- The collection that the samples are about. -/
def collection : String :=
  "https://fabrikam-fiber-inc.visualstudio.com/DefaultCollection/"

def ping : Json :=
  .object
    [("message", .string "Hello, world!")]

def codePushed : Json :=
  .object
    [("subscriptionId", .string "00000000-0000-0000-0000-000000000000"),
     ("notificationId", Json.ofNat 1),
     ("id", .string "03c164c2-8912-4d5e-8009-3707d5f83734"),
     ("eventType", .string "git.push"),
     ("publisherId", .string "tfs"),
     ("message", .object
      [("text", .string "Jamal Hartnett pushed updates to branch master of repository Fabrikam-Fiber-Git."),
       ("html", .string ("Jamal Hartnett pushed updates to branch master of repository <a href=\"" ++ collection ++ "_git/Fabrikam-Fiber-Git\">Fabrikam-Fiber-Git</a>."))]),
     ("resource", .object
      [("commits", .array
        [.object
          [("commitId", .string "33b55f7cb7e7e245323987634f960cf4a6e6bc74"),
           ("author", .object
            [("name", .string "Jamal Hartnett"),
             ("email", .string "fabrikamfiber4@hotmail.com"),
             ("date", .string "2015-02-25T19:01:00Z")]),
           ("comment", .string "Fixed bug in web.config file & bumped version")]]),
       ("refUpdates", .array
        [.object
          [("name", .string "refs/heads/master"),
           ("oldObjectId", .string "aad331d8d3b131fa9ae03cf5e53965b51942618a"),
           ("newObjectId", .string "33b55f7cb7e7e245323987634f960cf4a6e6bc74")]]),
       ("repository", .object
        [("id", .string "278d5cd2-584d-4b63-824a-2ba458937249"),
         ("name", .string "Fabrikam-Fiber-Git"),
         ("url", .string (collection ++ "_apis/git/repositories/278d5cd2-584d-4b63-824a-2ba458937249")),
         ("project", .object
          [("id", .string "6ce954b1-ce1f-45d1-b94d-e6bf2464ba2c"),
           ("name", .string "Fabrikam-Fiber-Git"),
           ("state", .string "wellFormed")]),
         ("defaultBranch", .string "refs/heads/master"),
         ("remoteUrl", .string (collection ++ "_git/Fabrikam-Fiber-Git"))]),
       ("pushedBy", .object
        [("id", .string "00067FFED5C7AF52@Live.com"),
         ("displayName", .string "Jamal Hartnett"),
         ("uniqueName", .string "Windows Live ID\\fabrikamfiber4@hotmail.com")]),
       ("pushId", Json.ofNat 14),
       ("date", .string "2014-05-02T19:17:13.3309587Z")]),
     ("createdDate", .string "2016-08-19T18:44:49.6217252Z")]

def push : Json :=
  .object
    [("collectionUri", .string (collection)),
     ("repoUri", .string (collection ++ "_git/Fabrikam-Fiber-Git")),
     ("projectId", .string "Fabrikam-Fiber-Git"),
     ("repoId", .string "Fabrikam-Fiber-Git"),
     ("commit", .string "33b55f7cb7e7e245323987634f960cf4a6e6bc74"),
     ("pushedBy", .string "Jamal Hartnett"),
     ("targetBranch", .string "master")]

def mergeCommit : Json :=
  .object
    [("subscriptionId", .string "00000000-0000-0000-0000-000000000000"),
     ("notificationId", Json.ofNat 2),
     ("id", .string "6872ee8c-b333-4eff-bfb9-0d5274943566"),
     ("eventType", .string "git.pullrequest.merged"),
     ("publisherId", .string "tfs"),
     ("message", .object
      [("text", .string "Jamal Hartnett has created a pull request merge commit"),
       ("html", .string ("Jamal Hartnett has created a pull request merge commit for <a href=\"" ++ collection ++ "_git/Fabrikam-Fiber-Git/pullrequest/1\">pull request 1</a> & is waiting for a build."))]),
     ("resource", .object
      [("repository", .object
        [("id", .string "4bc14d40-c903-45e2-872e-0462c7748079"),
         ("name", .string "Fabrikam-Fiber-Git"),
         ("url", .string (collection ++ "_apis/git/repositories/4bc14d40-c903-45e2-872e-0462c7748079")),
         ("project", .object
          [("id", .string "6ce954b1-ce1f-45d1-b94d-e6bf2464ba2c"),
           ("name", .string "Fabrikam-Fiber-Git"),
           ("state", .string "wellFormed")]),
         ("remoteUrl", .string (collection ++ "_git/Fabrikam-Fiber-Git"))]),
       ("pullRequestId", Json.ofNat 1),
       ("status", .string "active"),
       ("createdBy", .object
        [("id", .string "54d125f7-69f7-4191-904f-c5b96b6261c8"),
         ("displayName", .string "Jamal Hartnett"),
         ("uniqueName", .string "fabrikamfiber4@hotmail.com")]),
       ("creationDate", .string "2014-06-17T16:55:46.589889Z"),
       ("title", .string "my first pull request"),
       ("description", .string " - test2\r\n"),
       ("sourceRefName", .string "refs/heads/mytopic"),
       ("targetRefName", .string "refs/heads/master"),
       ("mergeStatus", .string "succeeded"),
       ("mergeId", .string "a10bb228-6ba6-4362-abd7-49ea21333dbd"),
       ("lastMergeSourceCommit", .object
        [("commitId", .string "53d54ac915144006c2c9e90d2c7d3880920db49c")]),
       ("lastMergeTargetCommit", .object
        [("commitId", .string "a511f535b1ea495ee0c903badb68fbc83772c882")]),
       ("lastMergeCommit", .object
        [("commitId", .string "eef717f69257a6333f221566c1c987dc94cc0d72")])]),
     ("createdDate", .string "2016-08-19T18:44:49.6217252Z")]

end BuildHooks.Event.Sample
